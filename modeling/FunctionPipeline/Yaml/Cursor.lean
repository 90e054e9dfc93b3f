import FunctionPipeline.Yaml.Characters

/-!
A place in a YAML text: what is left to read, and where that is. Columns count characters since
the last line end, without byte order marks.
-/

namespace FunctionPipeline.Yaml

/-- What is left of a text, with the place it starts at. -/
structure Cursor where
  rest : List Char
  index : Nat
  line : Nat
  column : Nat
  deriving Repr

namespace Cursor

def start (s : List Char) : Cursor := ⟨s, 0, 0, 0⟩

def peek (c : Cursor) : Option Char := c.rest.head?

def peekAt (c : Cursor) (n : Nat) : Option Char := c.rest[n]?

/-- The place after one character; a carriage return before a line feed ends no line. -/
def next (c : Cursor) : Cursor :=
  match c.rest with
  | [] => c
  | ch :: rest =>
      if isBreak ch || (ch = '\r' && rest.head? != some '\n') then
        ⟨rest, c.index + 1, c.line + 1, 0⟩
      else if ch = byteOrderMark then ⟨rest, c.index + 1, c.line, c.column⟩
      else ⟨rest, c.index + 1, c.line, c.column + 1⟩

def forward : Nat → Cursor → Cursor
  | 0, c => c
  | n + 1, c => forward n c.next

def takeWhile (p : Char → Bool) (c : Cursor) : List Char × Cursor :=
  let found := c.rest.takeWhile p
  (found, c.forward found.length)

def skipWhile (p : Char → Bool) (c : Cursor) : Cursor := (c.takeWhile p).2

def skipSpaces (c : Cursor) : Cursor := c.skipWhile (· = ' ')

def skipLine (c : Cursor) : Cursor := c.skipWhile fun ch => !isLineEnd ch

/-- The line end in front, as it counts in a scalar, and the place after it. All of ASCII and the
next-line control count as a line feed. -/
def lineEnd? (c : Cursor) : Option (Char × Cursor) :=
  match c.rest with
  | '\r' :: '\n' :: _ => some ('\n', c.forward 2)
  | ch :: _ =>
      if ch = '\r' || ch = '\n' || ch = '\x85' then some ('\n', c.next)
      else if isBreak ch then some (ch, c.next)
      else none
  | [] => none

/-- Whether the line between two documents is here: three hyphens or points and a separation. -/
def atMarker (c : Cursor) : Bool :=
  match c.rest with
  | a :: b :: d :: rest => (a = '-' || a = '.') && a = b && b = d && separates rest.head?
  | _ => false

end Cursor

end FunctionPipeline.Yaml

import FunctionPipeline.Fault
import FunctionPipeline.Text.Hex
import FunctionPipeline.Yaml.Cursor
import FunctionPipeline.Yaml.Writer

/-!
Reading scalars: plain, quoted and block ones. Each reader takes the place of the scalar's first
character and gives the text it stands for and the place after it.
-/

namespace FunctionPipeline.Yaml

inductive ReadError where
  | malformed
  /-- The text is well-formed, but a scalar or a version in it has no value of its kind. -/
  | fault (cause : Fault)
  deriving Repr, Inhabited

def required {α : Type} (found : Option α) : Except ReadError α :=
  match found with
  | some a => .ok a
  | none => .error .malformed

def blockBreaks (indent : Nat) : Nat → Cursor → List Char × Cursor
  | 0, c => ([], c)
  | fuel + 1, c =>
      let spaces := (c.rest.take (indent - c.column)).takeWhile (· = ' ')
      let c := c.forward spaces.length
      match c.lineEnd? with
      | some (ch, c) =>
          let (others, c) := blockBreaks indent fuel c
          (ch :: others, c)
      | none => ([], c)

/-- What line ends between two parts of a folded text stand for: a single line feed is a space, of
more line ends the first is dropped if it is a line feed. -/
def foldedBreaks (first : Char) (others : List Char) : List Char :=
  if first ≠ '\n' then first :: others
  else if others.isEmpty then [' ']
  else others

namespace Plain

/-- Line ends and spaces after the first line end of a gap; none before the line between two
documents. -/
def gapBreaks? : Nat → Cursor → Option (List Char) × Cursor
  | 0, c => (some [], c)
  | fuel + 1, c =>
      let c := c.skipSpaces
      match c.lineEnd? with
      | some (ch, c) =>
          if c.atMarker then (none, c)
          else
            match gapBreaks? fuel c with
            | (some others, c) => (some (ch :: others), c)
            | (none, c) => (none, c)
      | none => (some [], c)

structure Gap where
  /-- What the gap stands for if more of the scalar follows; nothing at all ends the scalar. -/
  text : List Char
  /-- Whether a line ended. -/
  ended : Bool
  cursor : Cursor

def gap (c : Cursor) : Gap :=
  let (spaces, c) := c.takeWhile (· = ' ')
  match c.lineEnd? with
  | some (first, c) =>
      if c.atMarker then ⟨[], true, c⟩
      else
        match gapBreaks? c.rest.length c with
        | (some others, c) => ⟨foldedBreaks first others, true, c⟩
        | (none, c) => ⟨[], true, c⟩
  | none => ⟨spaces, false, c⟩

/-- The characters in front that a plain scalar takes: no separation, no colon before one, and in
brackets none of their indicators. -/
def runLength (inBrackets : Bool) : List Char → Nat
  | [] => 0
  | c :: rest =>
      if isSeparating c then 0
      else if c = ':' && (separates rest.head? ||
          (inBrackets && (rest.head?.map [',', '[', ']', '\x7b', '\x7d'].contains).getD false)) then 0
      else if inBrackets && [',', '?', '[', ']', '\x7b', '\x7d'].contains c then 0
      else runLength inBrackets rest + 1

/-- A plain scalar's further parts after a gap; lines that go on are indented to `indent`. Gives
also whether the last line read ended. -/
def readFrom (inBrackets : Bool) (indent : Int) :
    Nat → List Char → Bool → Cursor → List Char × Bool × Cursor
  | 0, _, ended, c => ([], ended, c)
  | fuel + 1, before, ended, c =>
      if c.peek = some '#' then ([], ended, c)
      else
        let length := runLength inBrackets c.rest
        if length = 0 then ([], ended, c)
        else
          let run := c.rest.take length
          let g := gap (c.forward length)
          if g.text.isEmpty || g.cursor.peek = some '#' ||
              (!inBrackets && (g.cursor.column : Int) < indent) then
            (before ++ run, g.ended, g.cursor)
          else
            let (others, ended, c) := readFrom inBrackets indent fuel g.text g.ended g.cursor
            (before ++ run ++ others, ended, c)

def read (inBrackets : Bool) (indent : Int) (c : Cursor) : List Char × Bool × Cursor :=
  readFrom inBrackets indent (c.rest.length + 1) [] false c

end Plain

/-- Blank lines between the quotes of a scalar; malformed if the line between two documents is
among them. -/
def quotedBreaks : Nat → Cursor → Option (List Char × Cursor)
  | 0, _ => none
  | fuel + 1, c =>
      if c.atMarker then none
      else
        let c := c.skipWhile fun ch => ch = ' ' || ch = '\t'
        match c.lineEnd? with
        | some (ch, c) => do
            let (others, c) ← quotedBreaks fuel c
            return (ch :: others, c)
        | none => some ([], c)

def quotedGap (c : Cursor) : Option (List Char × Cursor) :=
  let (spaces, c) := c.takeWhile fun ch => ch = ' ' || ch = '\t'
  if c.rest.isEmpty then none
  else
    match c.lineEnd? with
    | some (first, c) => do
        let (others, c) ← quotedBreaks (c.rest.length + 1) c
        return (foldedBreaks first others, c)
    | none => some (spaces, c)

namespace SingleQuoted

def readFrom : Nat → Cursor → Option (List Char × Cursor)
  | 0, _ => none
  | fuel + 1, c =>
      match c.rest with
      | [] => none
      | '\'' :: '\'' :: _ => do
          let (others, c) ← readFrom fuel (c.forward 2)
          return ('\'' :: others, c)
      | '\'' :: _ => some ([], c.next)
      | ch :: _ =>
          if isSeparating ch then do
            let (gap, c) ← quotedGap c
            let (others, c) ← readFrom fuel c
            return (gap ++ others, c)
          else do
            let (others, c) ← readFrom fuel c.next
            return (ch :: others, c)

def read (c : Cursor) : Option (List Char × Cursor) :=
  readFrom (c.rest.length + 1) c.next

end SingleQuoted

namespace DoubleQuoted

def meaning? (letter : Char) : Option Char :=
  if letter = '\t' then some '\t'
  else if letter = ' ' then some ' '
  else if letter = '/' then some '/'
  else (letters.find? (·.2 == letter)).map (·.1)

def hexWidth? (letter : Char) : Option Nat :=
  if letter = 'x' then some 2
  else if letter = 'u' then some 4
  else if letter = 'U' then some 8
  else none

/-- The character of a number; numbers beyond the last one are faults. Surrogates, which no text
holds, become the replacement character. -/
def charOf (n : Nat) : Except ReadError Char :=
  if n ≥ 0x80000000 then .error (.fault .overflow)
  else if n ≥ 0x110000 then .error (.fault (.badValue "chr() arg not in range(0x110000)"))
  else if n.isValidChar then .ok (Char.ofNat n)
  else .ok '\uFFFD'

/-- What an escape stands for, from the character after the backslash on. An escaped line end
stands for the blank lines after it. -/
def readEscape (c : Cursor) : Except ReadError (List Char × Cursor) :=
  match c.peek with
  | none => .error .malformed
  | some letter =>
      match meaning? letter with
      | some ch => .ok ([ch], c.next)
      | none =>
          match hexWidth? letter with
          | some width => do
              let digits := (c.next).rest.take width
              if digits.length < width then .error .malformed
              let n ← required (hexNumber? digits)
              let ch ← charOf n
              return ([ch], c.forward (width + 1))
          | none =>
              match c.lineEnd? with
              | some (_, c) => required (quotedBreaks (c.rest.length + 1) c)
              | none => .error .malformed

def readFrom : Nat → Cursor → Except ReadError (List Char × Cursor)
  | 0, _ => .error .malformed
  | fuel + 1, c =>
      match c.rest with
      | [] => .error .malformed
      | '"' :: _ => .ok ([], c.next)
      | '\\' :: _ => do
          let (found, c) ← readEscape c.next
          let (others, c) ← readFrom fuel c
          return (found ++ others, c)
      | ch :: _ =>
          if isSeparating ch then do
            let (gap, c) ← required (quotedGap c)
            let (others, c) ← readFrom fuel c
            return (gap ++ others, c)
          else do
            let (others, c) ← readFrom fuel c.next
            return (ch :: others, c)

def read (c : Cursor) : Except ReadError (List Char × Cursor) :=
  readFrom (c.rest.length + 1) c.next

end DoubleQuoted

namespace Block

inductive Chomping where
  | strip
  | clip
  | keep
  deriving DecidableEq, Repr

def chomping? : Option Char → Option Chomping
  | some '+' => some .keep
  | some '-' => some .strip
  | _ => none

/-- An indentation indicator, a digit from 1 on. -/
def increment? (ch : Option Char) : Option Nat :=
  match ch with
  | some d => if d.isDigit then some (d.toNat - 48) else none
  | none => none

/-- The indicators after the one of the block, in either order. -/
def indicators (c : Cursor) : Option (Chomping × Option Nat × Cursor) :=
  let found := match chomping? c.peek with
    | some chomping =>
        match increment? c.next.peek with
        | some n => (chomping, some n, c.forward 2)
        | none => (chomping, none, c.next)
    | none =>
        match increment? c.peek with
        | some n =>
            match chomping? c.next.peek with
            | some chomping => (chomping, some n, c.forward 2)
            | none => (.clip, some n, c.next)
        | none => (.clip, none, c)
  let (_, increment, after) := found
  if increment = some 0 then none
  else if after.peek = some ' ' || endsLine after.peek then some found
  else none

/-- The rest of a line, where only a comment may stand, and its end. -/
def restOfLine (c : Cursor) : Option Cursor :=
  let c := c.skipSpaces
  let c := if c.peek = some '#' then c.skipLine else c
  if endsLine c.peek then some ((c.lineEnd?.map (·.2)).getD c) else none

/-- Blank lines before the first line of a block, and the greatest column that their spaces, or
those of the first line, reach. -/
def leadingLines : Nat → Nat → Cursor → List Char × Nat × Cursor
  | 0, deepest, c => ([], deepest, c)
  | fuel + 1, deepest, c =>
      let c := c.skipSpaces
      let deepest := max deepest c.column
      match c.lineEnd? with
      | some (ch, c) =>
          let (others, deepest, c) := leadingLines fuel deepest c
          (ch :: others, deepest, c)
      | none => ([], deepest, c)

/-- What stands between two lines of a block: in a folded one a single line feed between lines
that start without a blank is a space. -/
def between (folded : Bool) (lineEnd : Char) (breaks : List Char) (blankBefore blankAfter : Bool) :
    List Char :=
  if folded && lineEnd = '\n' && !blankBefore && !blankAfter then
    if breaks.isEmpty then [' '] else []
  else [lineEnd]

def startsBlank (c : Cursor) : Bool := c.peek = some ' ' || c.peek = some '\t'

/-- The lines of a block at its indentation, after the blank lines `breaks`. Gives the text, the
last line's end if there was one, and the blank lines after it. -/
def readLines (folded : Bool) (indent : Nat) :
    Nat → List Char → Cursor → List Char × Option Char × List Char × Cursor
  | 0, breaks, c => ([], none, breaks, c)
  | fuel + 1, breaks, c =>
      let (line, after) := c.takeWhile fun ch => !isLineEnd ch
      match after.lineEnd? with
      | none =>
          let (more, after) := blockBreaks indent (after.rest.length + 1) after
          (breaks ++ line, none, more, after)
      | some (lineEnd, after) =>
          let (more, after) := blockBreaks indent (after.rest.length + 1) after
          if after.column = indent && !after.rest.isEmpty then
            let glue := between folded lineEnd more (startsBlank c) (startsBlank after)
            let (others, last, trailing, after) := readLines folded indent fuel more after
            (breaks ++ line ++ glue ++ others, last, trailing, after)
          else (breaks ++ line, some lineEnd, more, after)

/-- A literal or folded block after its indicator, in a block of the given indentation. -/
def read (folded : Bool) (parent : Int) (c : Cursor) : Option (List Char × Cursor) := do
  let (chomping, increment, c) ← indicators c
  let c ← restOfLine c
  let least := (max (parent + 1) 1).toNat
  let (breaks, indent, c) := match increment with
    | none =>
        let (breaks, deepest, c) := leadingLines (c.rest.length + 1) 0 c
        (breaks, max least deepest, c)
    | some n =>
        let indent := least + n - 1
        let (breaks, c) := blockBreaks indent (c.rest.length + 1) c
        (breaks, indent, c)
  let (text, last, trailing, c) :=
    if c.column = indent && !c.rest.isEmpty then readLines folded indent (c.rest.length + 1) breaks c
    else ([], none, breaks, c)
  let tail := match chomping with
    | .strip => []
    | .clip => last.toList
    | .keep => last.toList ++ trailing
  return (text ++ tail, c)

end Block

end FunctionPipeline.Yaml

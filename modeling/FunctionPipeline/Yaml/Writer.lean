import FunctionPipeline.Text.Hex
import FunctionPipeline.Yaml.Style

/-!
The written forms of scalars. A scalar is written from a column on; lines that it goes on with are
indented. Plain and quoted scalars are folded at a space beyond the best width.
-/

namespace FunctionPipeline.Yaml

/-- Lines are folded beyond this column. -/
def bestWidth : Nat := 80

def newLine (indent : Nat) : List Char := '\n' :: List.replicate indent ' '

/-- Whether the line is folded at a space: it is long enough, and the space is a single one. -/
def foldsAt (column : Nat) (before after : Option Char) : Bool :=
  column > bestWidth && before.isSome && before != some ' ' && after.isSome && after != some ' '

namespace Plain

/-- A plain scalar after the character `before`, from a column on; folded only if asked for. -/
def writeFrom (fold : Bool) (indent : Nat) : Nat → Option Char → List Char → List Char
  | _, _, [] => []
  | column, before, c :: rest =>
      if c = ' ' && fold && foldsAt column before rest.head? then
        newLine indent ++ writeFrom fold indent indent (some c) rest
      else c :: writeFrom fold indent (column + 1) (some c) rest

def write (fold : Bool) (indent column : Nat) (s : List Char) : List Char :=
  writeFrom fold indent column none s

end Plain

namespace SingleQuoted

/-- What stands between the quotes. A quote is written twice; after line ends the next line is
indented. -/
def writeFrom (fold : Bool) (indent : Nat) : Nat → Option Char → List Char → List Char
  | _, before, [] =>
      if (before.map isBreak).getD false then List.replicate indent ' ' else []
  | column, before, c :: rest =>
      let (lead, column) :=
        if (before.map isBreak).getD false && !isBreak c then (List.replicate indent ' ', indent)
        else ([], column)
      lead ++
        if c = '\'' then '\'' :: '\'' :: writeFrom fold indent (column + 2) (some c) rest
        else if isBreak c then c :: writeFrom fold indent 0 (some c) rest
        else if c = ' ' && fold && foldsAt column before rest.head? then
          newLine indent ++ writeFrom fold indent indent (some c) rest
        else c :: writeFrom fold indent (column + 1) (some c) rest

def write (fold : Bool) (indent column : Nat) (s : List Char) : List Char :=
  '\'' :: writeFrom fold indent (column + 1) none s ++ ['\'']

end SingleQuoted

namespace DoubleQuoted

def letters : List (Char × Char) :=
  [('\x00', '0'), ('\x07', 'a'), ('\x08', 'b'), ('\t', 't'), ('\n', 'n'), ('\x0b', 'v'),
    ('\x0c', 'f'), ('\r', 'r'), ('\x1b', 'e'), ('"', '"'), ('\\', '\\'), ('\x85', 'N'),
    ('\xa0', '_'), ('\u2028', 'L'), ('\u2029', 'P')]

def isBare (c : Char) : Bool :=
  let n := c.toNat
  !(c = '"' || c = '\\' || c = '\x85' || c = '\u2028' || c = '\u2029' || c = byteOrderMark) &&
    ((0x20 ≤ n && n ≤ 0x7E) || (0xA0 ≤ n && n ≤ 0xD7FF) || (0xE000 ≤ n && n ≤ 0xFFFD))

def upperHex (width n : Nat) : List Char := (hexDigits width n).map Char.toUpper

def escape (c : Char) : List Char :=
  match letters.find? (·.1 == c) with
  | some (_, letter) => ['\\', letter]
  | none =>
      let n := c.toNat
      if n < 0x100 then '\\' :: 'x' :: upperHex 2 n
      else if n < 0x10000 then '\\' :: 'u' :: upperHex 4 n
      else '\\' :: 'U' :: upperHex 8 n

/-- A fold: a backslash ends the line, and another one keeps a space that comes next. -/
def foldLine (indent : Nat) (next : Option Char) : List Char × Nat :=
  if next = some ' ' then ('\\' :: newLine indent ++ ['\\'], indent + 1)
  else ('\\' :: newLine indent, indent)

/-- What stands between the quotes, after `before`, from a column on. The line may be folded
before a space, before what follows an escape, and after an escape; never next to the quotes. -/
def writeFrom (fold : Bool) (indent : Nat) : Nat → Option Char → List Char → List Char
  | _, _, [] => []
  | column, before, c :: rest =>
      let inside := fold && before.isSome && !rest.isEmpty
      if isBare c then
        let afterEscape := (before.map fun b => !isBare b).getD false
        if inside && (c = ' ' || afterEscape) && column > bestWidth then
          let (lead, column) := foldLine indent (some c)
          lead ++ c :: writeFrom fold indent (column + 1) (some c) rest
        else c :: writeFrom fold indent (column + 1) (some c) rest
      else
        let written := escape c
        let column := column + written.length
        if inside && column > bestWidth + 1 then
          let (tail, column) := foldLine indent rest.head?
          written ++ tail ++ writeFrom fold indent column (some c) rest
        else written ++ writeFrom fold indent column (some c) rest

def write (fold : Bool) (indent column : Nat) (s : List Char) : List Char :=
  '"' :: writeFrom fold indent (column + 1) none s ++ ['"']

end DoubleQuoted

namespace Literal

/-- The indentation and chomping indicators: a digit if the text starts with a space or line end,
a hyphen if it ends without a line end, a plus sign if it ends with more than one. -/
def hints (s : List Char) : List Char :=
  let lead := match s.head? with
    | some c => if c = ' ' || isBreak c then ['2'] else []
    | none => []
  let chomp := match s.reverse with
    | [] => []
    | c :: rest =>
        if !isBreak c then ['-']
        else
          match rest with
          | [] => ['+']
          | b :: _ => if isBreak b then ['+'] else []
  lead ++ chomp

/-- The lines: each that is not empty is indented, and the last one ends. -/
def writeLines (indent : Nat) : Bool → List Char → List Char
  | atStart, [] => if atStart then [] else ['\n']
  | atStart, c :: rest =>
      if isBreak c then c :: writeLines indent true rest
      else
        (if atStart then List.replicate indent ' ' else []) ++ c :: writeLines indent false rest

def write (indent : Nat) (s : List Char) : List Char :=
  '|' :: hints s ++ '\n' :: writeLines indent true s

/-- Whether all line ends at the end of the text are kept, so that more lines would add to it. -/
def isOpen (s : List Char) : Bool := (hints s).getLast? == some '+'

end Literal

end FunctionPipeline.Yaml

import FunctionPipeline.Decimal.Length
import FunctionPipeline.Text.Utf8
import FunctionPipeline.Yaml.ScalarReader

/-!
The tokens of a YAML text. Indentation becomes start and end tokens of blocks. A key on one line is
recognised only at its colon: until then it is pending, and its tokens are put in where it began.
-/

namespace FunctionPipeline.Yaml

inductive Directive where
  | version (major : Nat)
  | tagHandle (handle uri : List Char)
  | other
  deriving DecidableEq, Repr

inductive Token where
  | documentStart
  | documentEnd
  | directive (d : Directive)
  | blockSequenceStart
  | blockMappingStart
  | blockEnd
  | flowSequenceStart
  | flowSequenceEnd
  | flowMappingStart
  | flowMappingEnd
  | blockEntry
  | flowEntry
  | key
  | value
  | alias (name : List Char)
  | anchor (name : List Char)
  /-- A tag with the handle in front of it; none for a tag written in full. -/
  | tag (handle : Option (List Char)) (suffix : List Char)
  | scalar (plain : Bool) (text : List Char)
  /-- A scalar or a directive that cannot be read ends the tokens. -/
  | unreadable (cause : Fault)
  deriving Repr, Inhabited

/-- A place where a key on one line may have begun. -/
structure PendingKey where
  /-- How many tokens stand before it. -/
  tokens : Nat
  /-- Whether nothing but a key can stand here. -/
  required : Bool
  index : Nat
  line : Nat
  column : Nat
  deriving Repr

/-- A reader of tokens: those found so far, last one first, and what it keeps in mind. -/
structure Lexer where
  cursor : Cursor
  found : List Token
  /-- How many brackets are open. -/
  depth : Nat
  /-- The column of the innermost block, and those around it. -/
  indent : Int
  indents : List Int
  /-- Whether a key on one line may begin here. -/
  allowKey : Bool
  /-- The pending key at each depth of brackets that has one. -/
  pending : List (Nat × PendingKey)
  deriving Repr

namespace Lexer

def start (s : List Char) : Lexer := ⟨.start s, [], 0, -1, [], true, []⟩

def push (x : Lexer) (t : Token) : Lexer := { x with found := t :: x.found }

def moveTo (x : Lexer) (c : Cursor) : Lexer := { x with cursor := c }

/-- Past spaces, comments and line ends, after which a key may begin outside brackets. -/
def toNext : Nat → Lexer → Lexer
  | 0, x => x
  | fuel + 1, x =>
      let c := x.cursor.skipSpaces
      let c := if c.peek = some '#' then c.skipLine else c
      match c.lineEnd? with
      | some (_, c) => toNext fuel { x with cursor := c, allowKey := x.allowKey || x.depth == 0 }
      | none => x.moveTo c

/-- Whether a pending key can be one no more: its line is over, or it is too long. -/
def isStale (c : Cursor) (key : PendingKey) : Bool :=
  key.line != c.line || c.index - key.index > 1024

/-- Without the keys that can be none any more; malformed if one was required. -/
def dropStale (x : Lexer) : Option Lexer :=
  if x.pending.any fun e => isStale x.cursor e.2 && e.2.required then none
  else some { x with pending := x.pending.filter fun e => !isStale x.cursor e.2 }

/-- Without the pending key at this depth; malformed if it was required. -/
def dropKey (x : Lexer) : Option Lexer :=
  if x.pending.any fun e => e.1 == x.depth && e.2.required then none
  else some { x with pending := x.pending.filter (·.1 != x.depth) }

def saveKey (x : Lexer) : Option Lexer :=
  if x.allowKey then do
    let x ← x.dropKey
    let c := x.cursor
    let key : PendingKey :=
      ⟨x.found.length, x.depth == 0 && x.indent == c.column, c.index, c.line, c.column⟩
    return { x with pending := (x.depth, key) :: x.pending }
  else some x

def unwindFrom (column : Int) : Int → List Int → List Token → Int × List Int × List Token
  | indent, [], found => (indent, [], found)
  | indent, outer :: indents, found =>
      if indent > column then unwindFrom column outer indents (.blockEnd :: found)
      else (indent, outer :: indents, found)

def unwind (x : Lexer) (column : Int) : Lexer :=
  if x.depth > 0 then x
  else
    let (indent, indents, found) := unwindFrom column x.indent x.indents x.found
    { x with indent, indents, found }

/-- Begins a block at a column if it is further in than the innermost one. -/
def openBlock (x : Lexer) (column : Nat) : Option Lexer :=
  if x.indent < column then some { x with indent := column, indents := x.indent :: x.indents }
  else none

/-- Begins a block here, outside brackets, with its start token. -/
def openHere (x : Lexer) (start : Token) : Lexer :=
  if x.depth > 0 then x
  else
    match x.openBlock x.cursor.column with
    | some x => x.push start
    | none => x

/-- Puts tokens in before the last `n` ones. -/
def insertBelow (n : Nat) (tokens : List Token) (found : List Token) : List Token :=
  found.take n ++ tokens ++ found.drop n

/-- A token of one character after which no key may begin. -/
def single (x : Lexer) (t : Token) : Lexer :=
  { x with allowKey := false, cursor := x.cursor.next }.push t

def openBracket (x : Lexer) (t : Token) : Option Lexer := do
  let x ← x.saveKey
  return { x with depth := x.depth + 1, allowKey := true, cursor := x.cursor.next }.push t

/-- A closing bracket; malformed without an open one. -/
def closeBracket (x : Lexer) (t : Token) : Option Lexer := do
  let x ← x.dropKey
  if x.depth = 0 then none
  return { x with depth := x.depth - 1 }.single t

def comma (x : Lexer) : Option Lexer := do
  let x ← { x with allowKey := true }.dropKey
  return (x.moveTo x.cursor.next).push .flowEntry

def dash (x : Lexer) : Option Lexer := do
  if x.depth == 0 && !x.allowKey then none
  let x ← { x.openHere .blockSequenceStart with allowKey := true }.dropKey
  return (x.moveTo x.cursor.next).push .blockEntry

def question (x : Lexer) : Option Lexer := do
  if x.depth == 0 && !x.allowKey then none
  let x ← { x.openHere .blockMappingStart with allowKey := x.depth == 0 }.dropKey
  return (x.moveTo x.cursor.next).push .key

/-- A colon after a key: the pending one, if there is one, which may begin a mapping. -/
def colon (x : Lexer) : Option Lexer :=
  match x.pending.find? (·.1 == x.depth) with
  | some (_, key) =>
      let x := { x with pending := x.pending.filter (·.1 != x.depth) }
      let later := x.found.length - key.tokens
      let x := match if x.depth == 0 then x.openBlock key.column else none with
        | some x => { x with found := insertBelow later [.key, .blockMappingStart] x.found }
        | none => { x with found := insertBelow later [.key] x.found }
      some (x.single .value)
  | none => do
      if x.depth == 0 && !x.allowKey then none
      let x ← { x.openHere .blockMappingStart with allowKey := x.depth == 0 }.dropKey
      return (x.moveTo x.cursor.next).push .value

def name (c : Cursor) : Option (List Char × Cursor) :=
  let (found, c) := c.next.takeWhile isNameChar
  let ended := separates c.peek ||
    (c.peek.map ['?', ':', ',', ']', '\x7d', '%', '@', '\x60'].contains).getD false
  if found.isEmpty || !ended then none else some (found, c)

def percentOctets : Nat → Cursor → Option (List UInt8 × Cursor)
  | 0, _ => none
  | fuel + 1, c =>
      if c.peek = some '%' then do
        let digits := c.next.rest.take 2
        if digits.length < 2 then none
        let n ← hexNumber? digits
        let (others, c) ← percentOctets fuel (c.forward 3)
        return (n.toUInt8 :: others, c)
      else some ([], c)

def isUriChar (c : Char) : Bool := c.isAlphanum || "-;/?:@&=+$,_.!~*'()[]%".toList.contains c

def uriFrom : Nat → Cursor → Option (List Char × Cursor)
  | 0, _ => none
  | fuel + 1, c =>
      match c.rest with
      | '%' :: _ => do
          let (octets, c) ← percentOctets (c.rest.length + 1) c
          let found ← Utf8.decode? octets
          let (others, c) ← uriFrom fuel c
          return (found ++ others, c)
      | ch :: _ =>
          if isUriChar ch then do
            let (others, c) ← uriFrom fuel c.next
            return (ch :: others, c)
          else some ([], c)
      | [] => some ([], c)

def uri (c : Cursor) : Option (List Char × Cursor) := do
  let (found, after) ← uriFrom (c.rest.length + 1) c
  if after.index = c.index then none else some (found, after)

/-- A tag's handle: an exclamation mark alone, or a name between two. -/
def handle (c : Cursor) : Option (List Char × Cursor) :=
  if c.peek ≠ some '!' then none
  else
    let (name, after) := c.next.takeWhile isNameChar
    if after.peek = some '!' then some ('!' :: name ++ ['!'], after.next)
    else if name.isEmpty && after.peek = some ' ' then some (['!'], after)
    else none

def spaceOrEnd (c : Cursor) : Bool := c.peek = some ' ' || endsLine c.peek

/-- A tag: in full in angle brackets, alone, or with a handle. -/
def tagToken (c : Cursor) : Option (Token × Cursor) := do
  let (token, c) ←
    match c.peekAt 1 with
    | some '<' => do
        let (suffix, c) ← uri (c.forward 2)
        if c.peek ≠ some '>' then none
        pure (Token.tag none suffix, c.next)
    | next =>
        if separates next then pure (Token.tag none ['!'], c.next)
        else
          let word := c.next.rest.takeWhile fun ch => !(ch = ' ' || isLineEnd ch)
          if word.contains '!' then do
            let (handle, c) ← handle c
            let (suffix, c) ← uri c
            pure (Token.tag (some handle) suffix, c)
          else do
            let (suffix, c) ← uri c.next
            pure (Token.tag (some ['!']) suffix, c)
  if spaceOrEnd c then return (token, c) else none

/-- One of the two numbers of a version, which may not have too many digits. -/
def versionNumber (c : Cursor) : Except ReadError (Nat × Cursor) :=
  let (digits, c) := c.takeWhile Char.isDigit
  if digits.isEmpty then .error .malformed
  else if digits.length > digitLimit then .error (.fault (.tooManyDigits digits.length))
  else .ok (digits.foldl (fun n d => n * 10 + (d.toNat - 48)) 0, c)

def version (c : Cursor) : Except ReadError (Directive × Cursor) := do
  let (major, c) ← versionNumber c.skipSpaces
  if c.peek ≠ some '.' then throw .malformed
  let (_, c) ← versionNumber c.next
  if spaceOrEnd c then return (.version major, c) else throw .malformed

def tagHandle (c : Cursor) : Option (Directive × Cursor) := do
  let (handle, c) ← handle c.skipSpaces
  if c.peek ≠ some ' ' then none
  let (uri, c) ← uri c.skipSpaces
  if spaceOrEnd c then return (.tagHandle handle uri, c) else none

/-- A directive after its percent sign, with the rest of its line. -/
def directiveToken (c : Cursor) : Except ReadError (Directive × Cursor) := do
  let (name, c) := c.next.takeWhile isNameChar
  if name.isEmpty || !spaceOrEnd c then throw .malformed
  let (directive, c) ←
    if name == "YAML".toList then version c
    else if name == "TAG".toList then required (tagHandle c)
    else pure (Directive.other, c.skipLine)
  return (directive, ← required (Block.restOfLine c))

/-- A token at the left edge that ends all blocks. -/
def edge (x : Lexer) : Option Lexer := do
  let x ← (x.unwind (-1)).dropKey
  return { x with allowKey := false }

def scalar (x : Lexer) (plain : Bool) (text : List Char) (c : Cursor) : Lexer :=
  (x.moveTo c).push (.scalar plain text)

/-- What cannot be read ends the text. -/
def brokenOff (x : Lexer) (cause : Fault) : Lexer :=
  { x with cursor := { x.cursor with rest := [] }, pending := [] }.push (.unreadable cause)

def quoted (x : Lexer) (double : Bool) : Option Lexer := do
  let x ← x.saveKey
  let x := { x with allowKey := false }
  if double then
    match DoubleQuoted.read x.cursor with
    | .ok (text, c) => some (x.scalar false text c)
    | .error .malformed => none
    | .error (.fault cause) => some (x.brokenOff cause)
  else do
    let (text, c) ← SingleQuoted.read x.cursor
    return x.scalar false text c

def block (x : Lexer) (folded : Bool) : Option Lexer := do
  let x ← { x with allowKey := true }.dropKey
  let (text, c) ← Block.read folded x.indent x.cursor.next
  return x.scalar false text c

def plainScalar (x : Lexer) : Option Lexer := do
  let x ← x.saveKey
  let (text, ended, c) := Plain.read (x.depth > 0) (x.indent + 1) x.cursor
  return { x with allowKey := ended }.scalar true text c

/-- Whether a plain scalar may begin with a character, with the next one given. -/
def startsPlain (inBrackets : Bool) (c : Char) (next : Option Char) : Bool :=
  if isSeparating c then false
  else if c = '-' then !separates next
  else if c = '?' || c = ':' then !inBrackets && !separates next
  else !Analysis.isLeadIndicator c

def named (x : Lexer) (token : List Char → Token) : Option Lexer := do
  let x ← x.saveKey
  let (found, c) ← name x.cursor
  return { x with allowKey := false, cursor := c }.push (token found)

def fetch (x : Lexer) : Option Lexer :=
  let c := x.cursor
  let next := c.peekAt 1
  let inBrackets := x.depth > 0
  match c.peek with
  | none => none
  | some ch =>
      if ch = '%' && c.column == 0 then do
        let x ← x.edge
        match directiveToken x.cursor with
        | .ok (d, c) => some ((x.moveTo c).push (.directive d))
        | .error .malformed => none
        | .error (.fault cause) => some (x.brokenOff cause)
      else if c.column == 0 && c.atMarker then do
        let x ← x.edge
        return (x.moveTo (c.forward 3)).push (if ch = '-' then .documentStart else .documentEnd)
      else if ch = '[' then x.openBracket .flowSequenceStart
      else if ch = '\x7b' then x.openBracket .flowMappingStart
      else if ch = ']' then x.closeBracket .flowSequenceEnd
      else if ch = '\x7d' then x.closeBracket .flowMappingEnd
      else if ch = ',' then x.comma
      else if ch = '-' && separates next then x.dash
      else if ch = '?' && (inBrackets || separates next) then x.question
      else if ch = ':' && (inBrackets || separates next) then x.colon
      else if ch = '*' then x.named .alias
      else if ch = '&' then x.named .anchor
      else if ch = '!' then do
        let x ← x.saveKey
        let (token, c) ← tagToken x.cursor
        return { x with allowKey := false, cursor := c }.push token
      else if ch = '|' && !inBrackets then x.block false
      else if ch = '>' && !inBrackets then x.block true
      else if ch = '\'' then x.quoted false
      else if ch = '"' then x.quoted true
      else if startsPlain inBrackets ch next then x.plainScalar
      else none

/-- How many tokens are certain: those before the first pending key, which a colon further on may
put tokens before. -/
def certain (x : Lexer) : Nat :=
  (x.pending.filter fun e => !isStale x.cursor e.2).foldl (fun n e => min n e.2.tokens)
    x.found.length

/-- With what cannot be read in place of what was not certain when it came up: whoever looks
further than that comes upon it. -/
def settle (count : Nat) (x : Lexer) : Lexer :=
  match x.found with
  | .unreadable cause :: found =>
      { x with found := .unreadable cause :: found.drop (found.length - count) }
  | _ => x

def run : Nat → Lexer → Option Lexer
  | 0, _ => none
  | fuel + 1, x => do
      let count := x.certain
      let x ← (x.toNext (x.cursor.rest.length + 1)).dropStale
      let x := x.unwind x.cursor.column
      if x.cursor.rest.isEmpty then (x.unwind (-1)).dropKey
      else (x.fetch).bind fun x => run fuel (x.settle count)

end Lexer

/-- The tokens of a text; nothing if it has none. A byte order mark at the start is skipped. -/
def tokens? (s : List Char) : Option (List Token) := do
  if !s.all isAllowed then none
  let x := Lexer.start s
  let x := if x.cursor.peek = some byteOrderMark then x.moveTo x.cursor.next else x
  let x ← Lexer.run (s.length + 2) x
  return x.found.reverse

end FunctionPipeline.Yaml

import FunctionPipeline.Document.Text
import FunctionPipeline.Yaml.Writer

/-!
Documents as YAML text in block style: mappings and sequences by indentation of two, sequences in
mappings at the indentation of their key, empty containers in brackets. The text of each block ends
with a line end, so blocks are put together as they are.
-/

namespace FunctionPipeline.Yaml

def scalarWord : Value → List Char
  | .null => "null".toList
  | .bool b => (if b then "true" else "false").toList
  | .int i => (toString i).toList
  | .float x => (NumberStyle.document.text x).toList
  | _ => []

/-- A scalar's text in the style for it, from a column on. -/
def writeScalar (place : Place) (indent column : Nat) (s : List Char) : List Char :=
  let fold := place = .block
  match chooseStyle place s with
  | .plain => Plain.write fold indent column s
  | .singleQuoted => SingleQuoted.write fold indent column s
  | .doubleQuoted => DoubleQuoted.write fold indent column s
  | .literal => Literal.write indent s

/-- A text with a line end after it, unless it is a block, which has its own. -/
def scalarLine (indent column : Nat) (s : List Char) : List Char :=
  let written := writeScalar .block indent column s
  if chooseStyle .block s = .literal then written else written ++ ['\n']

/-- Blocks one below the other at an indentation; the first stands where the line is already. -/
def stack (indent : Nat) : List (List Char) → List Char
  | [] => []
  | [block] => block
  | block :: rest => block ++ List.replicate indent ' ' ++ stack indent rest

/-- A key with its colon, on one line if it is simple; else after a question mark, with the colon
on a line of its own. -/
def keyText (indent : Nat) (key : List Char) : List Char :=
  if isSimpleKey key then writeScalar .simpleKey (indent + 2) indent key ++ [':']
  else '?' :: ' ' :: scalarLine (indent + 2) (indent + 2) key ++ List.replicate indent ' ' ++ [':']

/-- The text of a key; keys of encodable documents are texts. -/
def keyChars : Value → List Char
  | .str s => s.toList
  | v => v.text.toList

mutual

/-- A value after a dash, or after the colon of a key that is not simple, at an indentation. A
container starts on the same line, two columns further. -/
def writeInline (indent : Nat) : Value → List Char
  | .str s => ' ' :: scalarLine (indent + 2) (indent + 2) s.toList
  | .sequence _ [] => " []\n".toList
  | .sequence _ items => ' ' :: stack (indent + 2) (writeItems (indent + 2) items)
  | .mapping _ [] => " \x7b\x7d\n".toList
  | .mapping _ entries => ' ' :: stack (indent + 2) (writeEntries (indent + 2) entries)
  | v => ' ' :: scalarWord v ++ ['\n']

/-- A value after a simple key whose colon ends at a column. A container starts on the next line:
a mapping two columns further, a sequence at the key's indentation. -/
def writeBelow (indent column : Nat) : Value → List Char
  | .str s => ' ' :: scalarLine (indent + 2) (column + 1) s.toList
  | .sequence _ [] => " []\n".toList
  | .sequence _ items => newLine indent ++ stack indent (writeItems indent items)
  | .mapping _ [] => " \x7b\x7d\n".toList
  | .mapping _ entries => newLine (indent + 2) ++ stack (indent + 2) (writeEntries (indent + 2) entries)
  | v => ' ' :: scalarWord v ++ ['\n']

def writeItems (indent : Nat) : List Value → List (List Char)
  | [] => []
  | x :: xs => ('-' :: writeInline indent x) :: writeItems indent xs

def writeEntries (indent : Nat) : List (Value × Value) → List (List Char)
  | [] => []
  | (k, v) :: es =>
      let key := keyText indent (keyChars k)
      (key ++
        if isSimpleKey (keyChars k) then writeBelow indent (indent + key.length) v
        else writeInline indent v) :: writeEntries indent es

end

/-- A document without the line that may close it. -/
def writeRoot : Value → List Char
  | .str s => scalarLine 2 0 s.toList
  | .sequence _ [] => "[]\n".toList
  | .sequence _ items => stack 0 (writeItems 0 items)
  | .mapping _ [] => "\x7b\x7d\n".toList
  | .mapping _ entries => stack 0 (writeEntries 0 entries)
  | v => scalarWord v ++ ['\n']

/-- The last scalar of a value, if the value ends with one. -/
def lastScalar : Value → Option Value
  | .sequence _ items => lastOfItems items
  | .mapping _ entries => lastOfEntries entries
  | v => some v
where
  lastOfItems : List Value → Option Value
    | [] => none
    | [x] => lastScalar x
    | _ :: xs => lastOfItems xs
  lastOfEntries : List (Value × Value) → Option Value
    | [] => none
    | [(_, v)] => lastScalar v
    | _ :: es => lastOfEntries es

/-- Whether a document needs a closing line: its root is a plain scalar, or its last scalar is a
literal block that keeps all its line ends. -/
def needsClosing (v : Value) : Bool :=
  let root := match v with
    | .str s => chooseStyle .block s.toList == .plain
    | .sequence .. | .mapping .. => false
    | _ => true
  let last := match lastScalar v with
    | some (.str s) => chooseStyle .block s.toList == .literal && Literal.isOpen s.toList
    | _ => false
  root || last

def write (v : Value) : List Char :=
  writeRoot v ++ if needsClosing v then "...\n".toList else []

end FunctionPipeline.Yaml

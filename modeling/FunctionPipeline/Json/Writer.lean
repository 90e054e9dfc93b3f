import FunctionPipeline.Document.Shown
import FunctionPipeline.Text.Hex

/-!
Writing JSON text in ASCII, with a blank after each comma and colon. Keys that are numbers,
booleans or null are written as strings; what has no JSON form is a fault, or its message text if
the caller asks for that. An integer with too many digits is a fault in any place.
-/

namespace FunctionPipeline.Json

def unitEscape (n : Nat) : List Char := '\\' :: 'u' :: hexDigits 4 n

def writtenChar (c : Char) : List Char :=
  if c = '"' then ['\\', '"']
  else if c = '\\' then ['\\', '\\']
  else if c = '\n' then ['\\', 'n']
  else if c = '\r' then ['\\', 'r']
  else if c = '\t' then ['\\', 't']
  else if c = '\x0c' then ['\\', 'f']
  else if c = '\x08' then ['\\', 'b']
  else if 32 ≤ c.toNat ∧ c.toNat < 127 then [c]
  else if c.toNat < 0x10000 then unitEscape c.toNat
  else
    let n := c.toNat - 0x10000
    unitEscape (0xD800 + n / 0x400) ++ unitEscape (0xDC00 + n % 0x400)

def stringLiteral (s : String) : String :=
  String.ofList ('"' :: s.toList.flatMap writtenChar ++ ['"'])

def keyText : Value → Except Fault String
  | .str s => .ok s
  | .null => .ok "null"
  | .bool b => .ok (if b then "true" else "false")
  | .int i => shownInteger i
  | .float x => .ok (NumberStyle.json.text x)
  | key => .error (.keyNotInterchangeable key.typeName)

/-- What is done with a value that has no JSON form. -/
inductive Otherwise where
  | refuse
  | describe
  deriving DecidableEq, Repr

def Otherwise.write (otherwise : Otherwise) (v : Value) : Except Fault String :=
  match otherwise with
  | .refuse => .error (.notInterchangeable v.typeName)
  | .describe => v.shown.map stringLiteral

mutual

def write (otherwise : Otherwise) : Value → Except Fault String
  | .null => .ok "null"
  | .bool b => .ok (if b then "true" else "false")
  | .int i => shownInteger i
  | .float x => .ok (NumberStyle.json.text x)
  | .str s => .ok (stringLiteral s)
  | .sequence _ items => do return "[" ++ joined ", " (← writeAll otherwise items) ++ "]"
  | .mapping .writable entries => do
      return "\x7b" ++ joined ", " (← writeEntries otherwise entries) ++ "\x7d"
  | .enclosing _ => .error .circular
  | v => otherwise.write v

def writeAll (otherwise : Otherwise) : List Value → Except Fault (List String)
  | [] => .ok []
  | x :: xs => do return (← write otherwise x) :: (← writeAll otherwise xs)

def writeEntries (otherwise : Otherwise) : List (Value × Value) → Except Fault (List String)
  | [] => .ok []
  | (k, v) :: es => do
      let key ← keyText k
      let text ← write otherwise v
      return (stringLiteral key ++ ": " ++ text) :: (← writeEntries otherwise es)

end

end FunctionPipeline.Json

import FunctionPipeline.Document.Shown

/-!
Which values can be written as documents: trees of mappings with text keys, sequences, texts,
integers, finite numbers, booleans and null. `Value.checkEncodable` reports the first offence from
left to right, depth first, with its path. A key that is no text and cannot be shown either is a
fault.
-/

namespace FunctionPipeline

inductive EncodeError where
  | nonFinite (path : String)
  | cyclic (path : String)
  | keyNotText (type literal path : String)
  | noForm (type path : String)
  | fault (cause : Fault)
  deriving Repr

def EncodeError.message : EncodeError → String
  | .nonFinite path => s!"Cannot encode non-finite number at {path}"
  | .cyclic path => s!"Cyclic structure at {path}"
  | .keyNotText type literal path => s!"Cannot encode {type} key {literal} at {path}"
  | .noForm type path => s!"Cannot encode {type} at {path}"
  | .fault cause => cause.message

def EncodeError.ofKey (key : Value) (path : String) : EncodeError :=
  match key.shownLiteral with
  | .ok literal => .keyNotText key.typeName literal path
  | .error cause => .fault cause

namespace Value

mutual

/-- Passes exactly the encodable values; the path is that of the value itself. -/
def checkEncodable (path : String) : Value → Except EncodeError Unit
  | .null | .bool _ | .int _ | .str _ => .ok ()
  | .float x => if x.isFinite then .ok () else .error (.nonFinite path)
  | .sequence _ items => checkItems path 0 items
  | .mapping _ entries => checkEntries path entries
  | .enclosing _ => .error (.cyclic path)
  | v => .error (.noForm v.typeName path)

def checkItems (path : String) (index : Nat) : List Value → Except EncodeError Unit
  | [] => .ok ()
  | x :: xs => do
      checkEncodable s!"{path}[{index}]" x
      checkItems path (index + 1) xs

def checkEntries (path : String) : List (Value × Value) → Except EncodeError Unit
  | [] => .ok ()
  | (.str name, v) :: es => do
      checkEncodable s!"{path}.{name}" v
      checkEntries path es
  | (k, _) :: _ => .error (.ofKey k path)

end

def rootPath : String := "$"

end Value

end FunctionPipeline

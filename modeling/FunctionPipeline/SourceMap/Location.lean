import FunctionPipeline.Document.Shown

/-!
Places in source files. Reports of places come from outside, so each part may be any value; a null
part is unknown.
-/

namespace FunctionPipeline

/-- A line, from 1 on, and a column, from 0 on, in a file. -/
structure Location where
  file : Value
  line : Value := .null
  column : Value := .null
  deriving Repr, Inhabited

namespace Location

/-- The name of the file, which has to be a text; what counts as no is unknown. -/
def fileName (l : Location) : Except Fault String :=
  if !l.file.isTrue then .ok "<unknown>"
  else
    match l.file with
    | .str name => .ok name
    | v => .error (.itemNotText 0 v.typeName)

/-- Line and column as far as they are known; what comes after an unknown line is left out. -/
def numbers (l : Location) : List Value :=
  match l.line, l.column with
  | .null, _ => []
  | line, .null => [line]
  | line, column => [line, column]

def text (l : Location) : Except Fault String := do
  let numbers ← l.numbers.mapM Value.shown
  return joined ":" ((← l.fileName) :: numbers)

end Location

end FunctionPipeline

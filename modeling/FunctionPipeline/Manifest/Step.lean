import FunctionPipeline.Document.Access
import FunctionPipeline.Manifest.Input
import FunctionPipeline.Text.Pieces

/-!
A pipeline step: a name, the function that runs it, and its input.
-/

namespace FunctionPipeline

structure Step where
  name : String
  function : String
  input : FunctionInput
  deriving Repr, Inhabited

namespace Step

/-- A name that is a text and not blank. -/
def nameIn? (v : Value) : Option String :=
  match v with
  | .str s => if isBlankText s then none else some s
  | _ => none

/-- The names of a step and of its function, neither of them blank. -/
def namesOf (name function : Value) : Except EmbedError (String × String) :=
  match nameIn? name with
  | none => .error .blankStep
  | some step =>
      match nameIn? function with
      | none => .error (.blankFunction step)
      | some function => .ok (step, function)

def ofParts (name function : Value) (input : FunctionInput) : Except EmbedError Step := do
  let (name, function) ← namesOf name function
  return ⟨name, function, input⟩

def toValue (s : Step) : Value :=
  .object [(.str "step", .str s.name), (.str "functionRef", .object [(.str "name", .str s.function)]),
    (.str "input", s.input.toValue)]

def partsOf (document : Value) : Except Fault (Value × Value × Value) := do
  let function ← (← document.subscript "functionRef").subscript "name"
  let input ← document.subscript "input"
  let name ← document.subscript "step"
  return (function, input, name)

def inputFailure (name : Value) (failure : Failure) : Failure :=
  match failure with
  | .invalidInput cause =>
      match name.shown with
      | .ok name => .serialization (.stepInput name cause)
      | .error cause => .fault cause
  | failure => failure

def ofValue (document : Value) : Except Failure Step :=
  match partsOf document with
  | .error cause => .error (.serialization (.stepMissing cause))
  | .ok (function, input, name) =>
      match FunctionInput.ofValue input with
      | .error failure => .error (inputFailure name failure)
      | .ok input =>
          match ofParts name function input with
          | .error cause => .error (.embed cause)
          | .ok step => .ok step

end Step

end FunctionPipeline

import FunctionPipeline.State.Resource

/-!
States: the composite resource, if it is known, and the composed resources under the names that a
function gave them.
-/

namespace FunctionPipeline

/-- Composed resources by name, in the order in which they were first written. -/
abbrev Resources := List (Value × Resource)

structure State where
  composite : Option Resource := none
  resources : Resources := []
  deriving Repr, Inhabited

namespace State

def resourcesValue (resources : Resources) : Value :=
  .object (resources.map fun (name, r) => (name, r.toValue))

def compositePart : Option Resource → Entries
  | none => []
  | some r => [(.str "composite", r.toValue)]

def resourcesPart (resources : Resources) : Entries :=
  if resources.isEmpty then [] else [(.str "resources", resourcesValue resources)]

def toValue (s : State) : Value :=
  .object (compositePart s.composite ++ resourcesPart s.resources)

def resourcesOf : List (Value × Value) → Except Failure Resources
  | [] => .ok []
  | (name, document) :: rest => do
      let r ← Resource.ofValue document
      return (name, r) :: (← resourcesOf rest)

/-- The composite that a document describes; null is none. -/
def compositeOf : Value → Except Failure (Option Resource)
  | .null => .ok none
  | document => do return some (← Resource.ofValue document)

/-- The state that a document describes; what counts as no is the empty state. -/
def ofValue (document : Value) : Except Failure State := do
  if !document.isTrue then return {}
  let some entries := document.entries? |
    throw (.invalidInput (.notObject "State" document.typeName))
  match Resource.mappingIn entries "resources" "resources" with
  | .error cause => throw (.invalidInput cause)
  | .ok documents =>
      let composite ← compositeOf ((Entries.field? entries "composite").getD .null)
      return ⟨composite, ← resourcesOf documents⟩

end State

end FunctionPipeline

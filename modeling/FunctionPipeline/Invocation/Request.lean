import FunctionPipeline.State.Basic

/-!
Requests: what a function receives. Every document in a request is kept as a writable tree, and the
function sees its read-only form.
-/

namespace FunctionPipeline

/-- A request. The input is that of the pipeline step as the manifest holds it; the tag is echoed
in the response. -/
structure Request where
  input : Entries := []
  observed : State := {}
  desired : State := {}
  tag : Value := .str ""
  context : Value := .object []
  deriving Repr, Inhabited

namespace Request

def toValue (r : Request) : Value :=
  .object [(.str "meta", .object [(.str "tag", r.tag)]), (.str "input", .object r.input),
    (.str "observed", r.observed.toValue), (.str "desired", r.desired.toValue),
    (.str "context", r.context)]

def tagIn (metadata : Value) : Value := (Value.part? metadata "tag").getD (.str "")

/-- A value as a writable tree; one that holds itself has none. -/
def asTree (v : Value) : Except Fault Value :=
  if v.hasReference then .error .endless else .ok v.thaw

/-- The request with an input and a context that are made trees. -/
def ofParts (input : Entries) (observed desired : State) (tag context : Value) :
    Except Fault Request := do
  let input ← input.asTree
  return ⟨input, observed, desired, tag, ← asTree context⟩

def ofValue (document : Value) : Except Failure Request := do
  let some entries := document.entries? |
    throw (.invalidInput (.notObject "Request" document.typeName))
  match Resource.mappingIn entries "input" "input" with
  | .error cause => throw (.invalidInput cause)
  | .ok input =>
      let observed ← State.ofValue ((Entries.field? entries "observed").getD .null)
      let desired ← State.ofValue ((Entries.field? entries "desired").getD .null)
      let tag := tagIn (Entries.orElse entries "meta" (.object []))
      match ofParts input observed desired tag (Entries.orElse entries "context" (.object []))
      with
      | .ok r => return r
      | .error cause => throw (.fault cause)

end Request

end FunctionPipeline

import FunctionPipeline.Manifest.Step
import FunctionPipeline.Yaml.Document

/-!
Manifests: compositions that run named steps in order. No two steps have the same name.
-/

namespace FunctionPipeline

/-- A composition of steps for a type of composite resource. Nothing depends on its own name,
version and kind, nor on those of the type. -/
structure Manifest where
  name : Value
  compositeApiVersion : Value
  compositeKind : Value
  steps : List Step
  apiVersion : Value
  kind : Value
  deriving Repr, Inhabited

namespace Manifest

/-- The version of a composition that does not name one. -/
def usualApiVersion : String := "apiextensions.crossplane.io/v1"

/-- The kind of a composition that does not name one. -/
def usualKind : String := "Composition"

/-- The names that occur more than once, each once and in order. -/
def repeated (names : List String) : List String :=
  ((names.filter fun name => names.count name > 1).eraseDups).mergeSort

/-- A manifest, provided that its step names differ. -/
def checked (m : Manifest) : Except EmbedError Manifest :=
  match repeated (m.steps.map Step.name) with
  | [] => .ok m
  | names => .error (.duplicateSteps names)

def step? (m : Manifest) (name : String) : Option Step := m.steps.find? fun s => s.name = name

def withStep (m : Manifest) (step : Step) : Except EmbedError Manifest :=
  checked { m with steps := m.steps ++ [step] }

def toValue (m : Manifest) : Value :=
  .object [(.str "apiVersion", m.apiVersion), (.str "kind", m.kind),
    (.str "metadata", .object [(.str "name", m.name)]),
    (.str "spec", .object
      [(.str "compositeTypeRef",
          .object [(.str "apiVersion", m.compositeApiVersion), (.str "kind", m.compositeKind)]),
        (.str "mode", .str pipelineMode),
        (.str "pipeline", .list (m.steps.map Step.toValue))])]

/-- The parts of a composition's document that have to be there: its specification and name, and
the version and kind of the composite's type. -/
def partsOf (document : Value) : Except Fault (Value × Value × Value × Value) := do
  let spec ← document.subscript "spec"
  let name ← (← document.subscript "metadata").subscript "name"
  let type ← spec.subscript "compositeTypeRef"
  return (spec, name, ← type.subscript "apiVersion", ← type.subscript "kind")

def unsupported (mode : Value) : Failure :=
  match mode.shown with
  | .ok mode => .serialization (.unsupportedMode mode)
  | .error cause => .fault cause

/-- The steps' documents in a specification. A null, or anything else that counts as no, is the
empty list. -/
def stepsIn (spec : Entries) : Except Failure (List Value) :=
  let mode := (Entries.field? spec "mode").getD (.str pipelineMode)
  let steps := Entries.orElse spec "pipeline" (.list [])
  if !mode.equals (.str pipelineMode) then .error (unsupported mode)
  else
    match steps with
    | .sequence .writable _ => .ok ((steps.items?).getD [])
    | _ => .error (.serialization .pipelineNotList)

def ofValue (document : Value) : Except Failure Manifest :=
  match partsOf document with
  | .error cause => .error (.serialization (.manifestMissing cause))
  | .ok (spec, name, compositeApiVersion, compositeKind) =>
      match stepsIn ((spec.entries?).getD []) with
      | .error failure => .error failure
      | .ok documents => do
          let steps ← documents.mapM Step.ofValue
          let entries := (document.entries?).getD []
          let m : Manifest := {
            name, compositeApiVersion, compositeKind, steps
            apiVersion := (Entries.field? entries "apiVersion").getD (.str usualApiVersion)
            kind := (Entries.field? entries "kind").getD (.str usualKind) }
          match checked m with
          | .ok m => return m
          | .error cause => throw (.embed cause)

def encode (m : Manifest) : Except Failure String := Yaml.encode m.toValue

def decode (text : String) : Except Failure Manifest := do ofValue (← Yaml.decode text)

def equals (m other : Manifest) : Bool := m.toValue.equals other.toValue

end Manifest

end FunctionPipeline

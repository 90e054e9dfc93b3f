import FunctionPipeline.Failure
import FunctionPipeline.Manifest.Error

/-!
The input of a pipeline step: the packaged function with the values that are passed to it. A
packaged function is its source, whether the source still has to be transpiled before it is loaded,
and annotations, texts under texts in order, that are passed on as they are. The source stands in
the input itself; there are no other kinds of source.
-/

namespace FunctionPipeline

abbrev TextMap := List (String × String)

namespace TextMap

/-- The entries of a mapping if all keys and values are texts. -/
def ofEntries (what : String) : List (Value × Value) → Except EmbedError TextMap
  | [] => .ok []
  | (.str key, .str text) :: rest => do return (key, text) :: (← ofEntries what rest)
  | (.str key, v) :: _ => .error (.itemNotText what key v.typeName)
  | (key, _) :: _ => .error (.keyNotText what key.typeName)

/-- A mapping from texts to texts; null is the empty one. -/
def ofValue (what : String) : Value → Except EmbedError TextMap
  | .null => .ok []
  | .mapping _ entries => ofEntries what entries
  | v => .error (.notMapping what v.typeName)

def toEntries (m : TextMap) : Entries := m.map fun e => (.str e.1, .str e.2)

def toValue (m : TextMap) : Value := .object m.toEntries

end TextMap

structure Artifact where
  source : String
  transpile : Bool
  annotations : TextMap
  deriving DecidableEq, Repr, Inhabited

/-- A packaged function from parts whose types nobody checked. -/
def Artifact.ofParts (source transpile annotations : Value) : Except EmbedError Artifact :=
  match source with
  | .str source =>
      match transpile with
      | .bool transpile => do
          return ⟨source, transpile, ← TextMap.ofValue "annotations" annotations⟩
      | v => .error (.flagNotBoolean v.typeName)
  | v => .error (.sourceNotText v.typeName)

/-- The input of a pipeline step. Nothing depends on its version and kind. -/
structure FunctionInput where
  artifact : Artifact
  values : TextMap
  apiVersion : Value
  kind : Value
  deriving Repr, Inhabited

namespace FunctionInput

/-- The version of an input that does not name one. -/
def usualApiVersion : String := "javascript.fn.crossplane.io/v1beta1"

/-- The kind of an input that does not name one. -/
def usualKind : String := "Input"

def unsupported (sourceType : Value) : Failure :=
  match sourceType.shown with
  | .ok kind => .embed (.unsupportedSource kind)
  | .error cause => .fault cause

def ofParts (artifact : Artifact) (values sourceType apiVersion kind : Value) :
    Except Failure FunctionInput :=
  if !sourceType.equals (.str inlineSource) then .error (unsupported sourceType)
  else
    match TextMap.ofValue "values" values with
    | .ok values => .ok ⟨artifact, values, apiVersion, kind⟩
    | .error cause => .error (.embed cause)

def ofArtifact (artifact : Artifact) : FunctionInput :=
  ⟨artifact, [], .str usualApiVersion, .str usualKind⟩

/-- Annotations as a document's metadata; none are left out. -/
def metadata (annotations : TextMap) : Entries :=
  if annotations.isEmpty then []
  else [(.str "metadata", .object [(.str "annotations", annotations.toValue)])]

/-- Values as a part of the specification; none are left out. -/
def valuesPart (values : TextMap) : Entries :=
  if values.isEmpty then [] else [(.str "values", values.toValue)]

def sourceValue (artifact : Artifact) : Value :=
  .object [(.str "transpile", .bool artifact.transpile), (.str "inline", .str artifact.source)]

def toValue (input : FunctionInput) : Value :=
  .object ([(.str "apiVersion", input.apiVersion), (.str "kind", input.kind)] ++
    metadata input.artifact.annotations ++
    [(.str "spec", .object ((.str "source", sourceValue input.artifact) ::
      valuesPart input.values))])

def sourceEntries? (spec : Value) : Option Entries :=
  (Value.part? spec "source").bind Value.entries?

/-- The annotations in metadata; what counts as no is none. -/
def annotationsIn (metadata : Value) : Value :=
  match Value.part? metadata "annotations" with
  | some v => if v.isTrue then v else .object []
  | none => .object []

def refused {α : Type} (cause : InputError) : Except Failure α := .error (.invalidInput cause)

def ofValue (document : Value) : Except Failure FunctionInput := do
  let some entries := document.entries? | refused (.notObject "Input" document.typeName)
  let spec := Entries.orElse entries "spec" (.object [])
  let some source := sourceEntries? spec | refused .missingSource
  let inlineText := (Entries.field? source "inline").getD (.str "")
  match inlineText with
  | .str _ =>
      let transpile := (Entries.field? source "transpile").getD (.bool false)
      let annotations := annotationsIn (Entries.orElse entries "metadata" (.object []))
      let made : Except Failure FunctionInput := do
        let artifact ← (Artifact.ofParts inlineText transpile annotations).mapError Failure.embed
        ofParts artifact (Entries.orElse ((spec.entries?).getD []) "values" (.object []))
          (Entries.orElse source "type" (.str inlineSource))
          ((Entries.field? entries "apiVersion").getD (.str usualApiVersion))
          ((Entries.field? entries "kind").getD (.str usualKind))
      match made with
      | .error (.embed cause) => refused (.invalid cause)
      | made => made
  | _ => refused .sourceNotText

end FunctionInput

end FunctionPipeline

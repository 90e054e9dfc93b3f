import FunctionPipeline.Config.Basic
import FunctionPipeline.SourceMap.Inline
import FunctionPipeline.Tool.Bundler
import FunctionPipeline.Tool.Downgrader

/-!
The stages of a build. Each one takes what the stage before it made: an entry module becomes a
bundle, the bundle a source in the runtime's dialect, that source a manifest with a single step,
and the manifest a text. Every stage logs what it does.
-/

namespace FunctionPipeline.Build

def logger : String := loggerName "packager"

def record (level : LogLevel) (message event : String) (metadata : Entries) : LogRecord :=
  { level, logger, message, event := some (.str event), metadata := some (.object metadata) }

def stageRecord (stage happening event : String) (metadata : Entries) : LogRecord :=
  { record .debug (stage ++ ": stage " ++ happening) event metadata with stage := some (.str stage) }

def started (stage : String) (metadata : Entries) : Operation Unit :=
  Operation.log (stageRecord stage "started" "stage_started" metadata)

def completed (stage : String) (metadata : Entries) : Operation Unit :=
  Operation.log (stageRecord stage "completed" "stage_completed" metadata)

/-- The length of a text as the log names it: it counts characters. -/
def lengthOf (text : String) : Entries := [(.str "bytes", .int text.length)]

def bundle (config : Config) (entry : Path) : Operation String := do
  started "bundle" [(.str "entry", .str entry.text)]
  let code ← (Bundler.ofConfig config.bundler).bundle entry
  completed "bundle" (lengthOf code)
  return code

/-- The place in the modules of a bundle that a place in the bundle comes from, as far as the
bundle's own source map knows. -/
def sourceOf (bundled : String) (generated : Location) : Except Fault (Option Location) :=
  match generated.line with
  | .null => .ok none
  | line => do
      match ← SourceMap.ofCode bundled with
      | none => return none
      | some map =>
          map.sourceFor line (if generated.column.isTrue then generated.column else .int 0)

/-- The failure of a bundle's downgrade told of the modules it was bundled from. -/
def inSources (bundled : String) (failure : Failure) : Failure :=
  match failure with
  | .downgrade message (some generated) _ =>
      match sourceOf bundled generated with
      | .ok (some place) => .downgrade message (some place) (some generated)
      | .ok none => failure
      | .error cause => .fault cause
  | _ => failure

/-- A bundle in a dialect, or in that of the configuration if the one asked for counts as no. -/
def downgrade (config : Config) (bundled : String) (dialect : Value) : Operation String := do
  let dialect := if dialect.isTrue then dialect else config.downgrader.dialect
  started "downgrade" [(.str "target_dialect", dialect)]
  match ← Operation.outcome ((Downgrader.ofConfig config.downgrader).downgrade bundled dialect) with
  | .error failure => throw (inSources bundled failure)
  | .ok code =>
      completed "downgrade" (lengthOf code)
      return code

/-- What a build names and annotates its step with. A null name is the one in the configuration. -/
structure Labels where
  step : Value := .null
  function : Value := .null
  annotations : Value := .null
  deriving Repr, Inhabited

namespace Labels

def orUsual (v usual : Value) : Value :=
  match v with
  | .null => usual
  | v => v

def stepIn (labels : Labels) (c : Config.Composition) : Value := orUsual labels.step c.step

def functionIn (labels : Labels) (c : Config.Composition) : Value :=
  orUsual labels.function c.function

def pairIn (v : Value) : Except Fault (Value × Value) := do
  match ← v.elements with
  | [key, item] => return (← key.asKey, item)
  | items => throw (.badValue s!"update sequence element has length {items.length}; 2 is required")

/-- What a mapping or a list of pairs holds; what counts as no holds nothing. -/
def entriesIn (v : Value) : Except Fault Entries :=
  if !v.isTrue then .ok []
  else
    match v.entries? with
    | some entries => .ok entries
    | none => do (← v.elements).mapM pairIn

/-- The annotations of the configuration and over them those of the labels. -/
def annotationsIn (labels : Labels) (c : Config.Composition) : Except Fault Entries := do
  return Entries.update c.annotations (← entriesIn labels.annotations)

/-- Refuses labels that cannot be embedded, whatever the source is. -/
def check (labels : Labels) (c : Config.Composition) : Except EmbedError Unit := do
  let _ ← Step.namesOf (labels.stepIn c) (labels.functionIn c)
  let _ ← TextMap.ofEntries "annotations" c.annotations
  let _ ← TextMap.ofValue "annotations" labels.annotations

end Labels

/-- The manifest whose only step runs a source that is ready to be loaded. -/
def manifestOf (c : Config.Composition) (source : Value) (labels : Labels) (annotations : Entries) :
    Except EmbedError Manifest := do
  let artifact ← Artifact.ofParts source (.bool false) (.object annotations)
  let step ← Step.ofParts (labels.stepIn c) (labels.functionIn c) (.ofArtifact artifact)
  Manifest.checked {
    name := c.name
    compositeApiVersion := c.compositeApiVersion
    compositeKind := c.compositeKind
    steps := [step]
    apiVersion := c.apiVersion
    kind := c.kind }

def embed (config : Config) (source : Value) (labels : Labels) : Operation Manifest := do
  let c := config.manifest
  let annotations ← Operation.ofFault (labels.annotationsIn c)
  match manifestOf c source labels annotations with
  | .error cause => throw (.embed cause)
  | .ok manifest =>
      completed "embed"
        [(.str "step", labels.stepIn c), (.str "function", labels.functionIn c)]
      return manifest

def serialize (manifest : Manifest) : Operation String :=
  match manifest.encode with
  | .error failure => throw failure
  | .ok document => do
      completed "serialize" (lengthOf document)
      return document

end FunctionPipeline.Build

import FunctionPipeline.Document.Encodable
import FunctionPipeline.Fault

/-!
Why a manifest or one of its parts is refused.
-/

namespace FunctionPipeline

inductive EmbedError where
  | notMapping (what type : String)
  | keyNotText (what type : String)
  | itemNotText (what key type : String)
  | sourceNotText (type : String)
  | flagNotBoolean (type : String)
  | unsupportedSource (kind : String)
  | blankStep
  | blankFunction (step : String)
  | duplicateSteps (names : List String)
  deriving DecidableEq, Repr

def inlineSource : String := "Inline"

def EmbedError.message : EmbedError → String
  | .notMapping what type => s!"{what} must be a mapping, got {type}"
  | .keyNotText what type => s!"{what} keys must be strings, got {type}"
  | .itemNotText what key type => s!"{what} value for '{key}' must be a string, got {type}"
  | .sourceNotText type => s!"entry_source must be a string, got {type}"
  | .flagNotBoolean type => s!"transpile must be a boolean, got {type}"
  | .unsupportedSource kind => s!"Unsupported source type '{kind}'. Supported: {inlineSource}"
  | .blankStep => "Step name must be a non-empty string"
  | .blankFunction step => s!"Step '{step}': function name must be a non-empty string"
  | .duplicateSteps names => "Duplicate step names: " ++ joined ", " names

inductive InputError where
  | notObject (what type : String)
  | partNotObject (what : String)
  | missingSource
  | sourceNotText
  | invalid (cause : EmbedError)
  deriving DecidableEq, Repr

def InputError.message : InputError → String
  | .notObject what type => s!"{what} must be an object, got {type}"
  | .partNotObject what => s!"{what} must be an object"
  | .missingSource => "Input is missing spec.source"
  | .sourceNotText => "spec.source.inline must be a string"
  | .invalid cause => "Invalid function input: " ++ cause.message

inductive SerializationError where
  | encode (cause : EncodeError)
  | malformed
  | rootNotMapping (type : String)
  | stepMissing (cause : Fault)
  | stepInput (step : String) (cause : InputError)
  | manifestMissing (cause : Fault)
  | unsupportedMode (mode : String)
  | pipelineNotList
  deriving Repr

def pipelineMode : String := "Pipeline"

def SerializationError.message : SerializationError → String
  | .encode cause => cause.message
  | .malformed => "Invalid YAML document"
  | .rootNotMapping type => s!"Document root must be a mapping, got {type}"
  | .stepMissing cause => "Invalid pipeline step: missing " ++ cause.message
  | .stepInput step cause => s!"Step '{step}': " ++ cause.message
  | .manifestMissing cause => "Invalid composition document: missing " ++ cause.message
  | .unsupportedMode mode => s!"Unsupported composition mode '{mode}', expected '{pipelineMode}'"
  | .pipelineNotList => "spec.pipeline must be a list"

end FunctionPipeline

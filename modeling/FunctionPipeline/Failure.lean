import FunctionPipeline.Config.Error
import FunctionPipeline.Document.Shown
import FunctionPipeline.Invocation.Error
import FunctionPipeline.Manifest.Error
import FunctionPipeline.SourceMap.Location

/-!
Failures: the rules of this library that can be broken, by kind, and the faults beside them. A kind
may be a special case of another.
-/

namespace FunctionPipeline

inductive FailureKind where
  | general
  | build
  | bundle
  | downgrade
  | embed
  | serialization
  | function
  | invalidInput
  | invalidResource
  | execution
  | config
  deriving DecidableEq, Repr

namespace FailureKind

def name : FailureKind → String
  | .general => "InlineFnError"
  | .build => "BuildError"
  | .bundle => "BundleError"
  | .downgrade => "DowngradeError"
  | .embed => "EmbedError"
  | .serialization => "SerializationError"
  | .function => "FunctionError"
  | .invalidInput => "InvalidInputError"
  | .invalidResource => "InvalidResourceError"
  | .execution => "FunctionExecutionError"
  | .config => "ConfigError"

def all : List FailureKind :=
  [.general, .build, .bundle, .downgrade, .embed, .serialization, .function, .invalidInput,
    .invalidResource, .execution, .config]

def ofName? (name : String) : Option FailureKind := all.find? (·.name == name)

/-- The kind itself and those it is a special case of, the nearest one first. -/
def lineage : FailureKind → List FailureKind
  | .general => [.general]
  | .build => [.build, .general]
  | .bundle => [.bundle, .build, .general]
  | .downgrade => [.downgrade, .build, .general]
  | .embed => [.embed, .build, .general]
  | .serialization => [.serialization, .build, .general]
  | .function => [.function, .general]
  | .invalidInput => [.invalidInput, .function, .general]
  | .invalidResource => [.invalidResource, .function, .general]
  | .execution => [.execution, .function, .general]
  | .config => [.config, .general]

end FailureKind

inductive Failure where
  /-- A module graph that is no bundle. The message and the module come from outside. -/
  | bundle (message modulePath : Value)
  /-- A source that cannot be downgraded, with the place in it and the one in the generated text. -/
  | downgrade (message : Value) (location generated : Option Location)
  | embed (cause : EmbedError)
  | serialization (cause : SerializationError)
  | invalidInput (cause : InputError)
  | invalidResource (cause : ResourceError)
  | execution (cause : ExecutionError)
  | config (cause : ConfigError)
  /-- A failure of some kind stated in the words of whoever raised it. -/
  | stated (kind : FailureKind) (words : List Value)
  /-- Something that a function's body raised and that is none of the kinds. -/
  | raised (words : List Value)
  | fault (cause : Fault)
  deriving Repr, Inhabited

namespace Failure

def ofEncodeError : EncodeError → Failure
  | .fault cause => .fault cause
  | cause => .serialization (.encode cause)

/-- The kind of a failure; a fault, and what a function raised, have none. -/
def kind? : Failure → Option FailureKind
  | .bundle .. => some .bundle
  | .downgrade .. => some .downgrade
  | .embed _ => some .embed
  | .serialization _ => some .serialization
  | .invalidInput _ => some .invalidInput
  | .invalidResource _ => some .invalidResource
  | .execution _ => some .execution
  | .config _ => some .config
  | .stated kind _ => some kind
  | .raised _ | .fault _ => none

def className : Failure → String
  | .raised _ => "RuntimeError"
  | .fault cause => cause.className
  | f => (f.kind?.map FailureKind.name).getD ""

/-- Whether a failure is of a kind or a special case of it. -/
def isA (f : Failure) (kind : FailureKind) : Bool :=
  (f.kind?.map fun k => k.lineage.contains kind).getD false

/-- Words as a text: none is empty, one its text, several a list in parentheses. -/
def wordsText : List Value → Except Fault String
  | [] => .ok ""
  | [v] => v.shown
  | vs => (Value.tuple vs).shownLiteral

def textOnly : Value → Except Fault String
  | .str s => .ok s
  | v => .error (.messageNotText v.typeName)

/-- The text of a failure. A message from outside that is no text and stands alone is a fault. -/
def message : Failure → Except Fault String
  | .bundle message modulePath =>
      if modulePath.isTrue then do
        let text ← message.shown
        let path ← modulePath.shown
        return s!"{text} (module: {path})"
      else textOnly message
  | .downgrade message location _ =>
      match location with
      | some l => do
          let text ← message.shown
          let place ← l.text
          return s!"{text} (at {place})"
      | none => textOnly message
  | .embed cause => .ok cause.message
  | .serialization cause => .ok cause.message
  | .invalidInput cause => .ok cause.message
  | .invalidResource cause => .ok cause.message
  | .execution cause => .ok cause.message
  | .config cause => .ok cause.message
  | .stated _ words => wordsText words
  | .raised words => wordsText words
  | .fault cause => .ok cause.message

end Failure

end FunctionPipeline

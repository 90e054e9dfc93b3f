import FunctionPipeline.Document.Merge
import FunctionPipeline.Invocation.Request

/-!
Responses: the outcome of one invocation. A fatal result makes a response a failure.
-/

namespace FunctionPipeline

inductive Severity where
  | normal
  | warning
  | fatal
  deriving DecidableEq, Repr, Inhabited

namespace Severity

def name : Severity → String
  | .normal => "Normal"
  | .warning => "Warning"
  | .fatal => "Fatal"

def ofName? (name : String) : Option Severity :=
  [Severity.normal, .warning, .fatal].find? fun s => s.name == name

end Severity

structure Result where
  severity : Severity
  message : String
  deriving DecidableEq, Repr, Inhabited

def Result.toValue (r : Result) : Value :=
  .object [(.str "severity", .str r.severity.name), (.str "message", .str r.message)]

/-- A response: the desired state after the step, the updates of the composite's status that this
invocation made, in order, and messages. It may be kept for so many seconds. -/
structure Response where
  tag : Value := .str ""
  desired : State := {}
  statusUpdates : List Entries := []
  results : List Result := []
  ttl : Int
  deriving Repr, Inhabited

namespace Response

/-- How long a response may be kept unless something else is asked for, in seconds. -/
def usualTtl : Int := 60

def failed (r : Response) : Bool := r.results.any fun result => result.severity = .fatal

/-- A status after this invocation's updates, one by one. -/
def applyStatus (r : Response) (status : Entries) : Entries :=
  r.statusUpdates.foldl Entries.deepMerge (Entries.thaw status)

/-- A status that nobody checked to be a mapping after this invocation's updates. What holds itself
has no copy to apply them to. -/
def applyStatusTo (r : Response) (status : Value) : Except Fault Value :=
  if status.hasReference then .error .endless
  else
    r.statusUpdates.foldlM (fun status update => Value.deepMerge status (.object update))
      status.thaw

def statusDelta (r : Response) : Entries := r.statusUpdates.foldl Entries.deepMerge []

def connectionDetails (r : Response) : Entries := (r.desired.composite.map Resource.details).getD []

def resultsPart (results : List Result) : Entries :=
  if results.isEmpty then [] else [(.str "results", .list (results.map Result.toValue))]

def toValue (r : Response) : Value :=
  .object ([(.str "meta", .object [(.str "tag", r.tag), (.str "ttl", .str s!"{r.ttl}s")]),
    (.str "desired", r.desired.toValue)] ++ resultsPart r.results)

/-- A failed invocation: the desired state of the request passes through as it was. -/
def fatal (request : Request) (message : String) (ttl : Int) : Response :=
  { tag := request.tag, desired := request.desired, results := [⟨.fatal, message⟩], ttl }

/-- The parts of a response that must not change when an invocation is repeated. -/
def fingerprint (r : Response) : Value :=
  .object [(.str "failed", .bool r.failed),
    (.str "resources", State.resourcesValue r.desired.resources),
    (.str "connection_details", .object r.connectionDetails),
    (.str "status_delta", .object r.statusDelta)]

def sameOutcome (r other : Response) : Bool := r.fingerprint.equals other.fingerprint

end Response

end FunctionPipeline

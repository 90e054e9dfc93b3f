import FunctionPipeline.Document.Frozen
import FunctionPipeline.Document.Value
import FunctionPipeline.Failure
import FunctionPipeline.Manifest.Input

/-!
Resources: a body and what the engine keeps beside it, such as whether the resource is ready, as far
as its function says. Bodies and connection details are kept as writable trees; `view` gives the
read-only form that functions see.
-/

namespace FunctionPipeline

inductive Ready where
  | yes
  | no
  | unspecified
  deriving DecidableEq, Repr, Inhabited

namespace Ready

def text : Ready → String
  | .yes => "True"
  | .no => "False"
  | .unspecified => "Unspecified"

/-- The readiness that a value names; any other value names none. -/
def ofValue (v : Value) : Ready :=
  match v with
  | .str "True" => .yes
  | .str "False" => .no
  | _ => .unspecified

end Ready

/-- A resource: the readiness is that of a composed resource, the details are a composite's. -/
structure Resource where
  body : Entries
  ready : Ready := .unspecified
  details : Entries := []
  deriving Repr, Inhabited

/-- Entries as a writable tree; a container that holds itself has none. -/
def Entries.asTree (entries : Entries) : Except Fault Entries :=
  if Value.entryReference entries then .error .endless else .ok (Entries.thaw entries)

namespace Resource

def field (r : Resource) (key : String) : Value :=
  ((Entries.field? r.body key).getD .null).freeze

/-- A part of the body that is usually a mapping; what counts as no is the empty one. -/
def part (r : Resource) (key : String) : Value :=
  let v := r.field key
  if v.isTrue then v else .mapping .readOnly []

def readyPart : Ready → Entries
  | .unspecified => []
  | ready => [(.str "ready", .str ready.text)]

def detailsPart (details : Entries) : Entries :=
  if details.isEmpty then [] else [(.str "connectionDetails", .object details)]

def toValue (r : Resource) : Value :=
  .object ((.str "resource", .object r.body) :: (readyPart r.ready ++ detailsPart r.details))

/-- A mapping under a key of a document; what counts as no is the empty one. -/
def mappingIn (entries : Entries) (key what : String) : Except InputError Entries :=
  match (Entries.orElse entries key (.object [])).entries? with
  | some below => .ok below
  | none => .error (.partNotObject what)

/-- The body and the connection details in a document, as they stand there. -/
def partsOf (document : Value) : Except InputError (Entries × Entries × Ready) := do
  let some entries := document.entries? | throw (.notObject "Resource" document.typeName)
  let body ← mappingIn entries "resource" "Resource body"
  let details ← mappingIn entries "connectionDetails" "connectionDetails"
  return (body, details, Ready.ofValue ((Entries.field? entries "ready").getD .null))

def ofValue (document : Value) : Except Failure Resource :=
  match partsOf document with
  | .error cause => .error (.invalidInput cause)
  | .ok (body, details, ready) =>
      match body.asTree, details.asTree with
      | .ok body, .ok details => .ok ⟨body, ready, details⟩
      | .error cause, _ | _, .error cause => .error (.fault cause)

end Resource

end FunctionPipeline

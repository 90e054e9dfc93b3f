import FunctionPipeline.Document.Path
import FunctionPipeline.Invocation.Response

/-!
The response builder: what a function may do. It starts from the desired state of earlier steps and
takes three kinds of calls, in any order and number. A composed resource is written under its name
and the last write counts; connection details are replaced; a status is merged into the
composite's status. A call that is refused changes nothing.
-/

namespace FunctionPipeline

structure Builder where
  composite : Entries
  details : Entries
  composed : Resources
  updates : List Entries
  deriving Repr, Inhabited

inductive Call where
  | setResource (name body : Value)
  | setDetails (details : Value)
  | updateStatus (status : Value)
  deriving Repr, Inhabited

namespace Builder

/-- The annotation by which a function states a resource's readiness. -/
def readyAnnotation : String := "javascript.fn.crossplane.io/ready"

def ofState (desired : State) : Builder :=
  let composite := desired.composite.getD { body := [] }
  ⟨composite.body, composite.details, desired.resources, []⟩

def refused {α : Type} (cause : ResourceError) : Except Failure α :=
  .error (.invalidResource cause)

def hasText (body : Entries) (key : String) : Bool :=
  match Entries.field? body key with
  | some (.str s) => !s.isEmpty
  | _ => false

/-- The body without the annotation for readiness, and the readiness it states. -/
def withoutReadiness (body : Entries) : Entries × Ready :=
  match Entries.field? body "metadata" with
  | some (.mapping access metadata) =>
      match Entries.field? metadata "annotations" with
      | some (.mapping below annotations) =>
          match Entries.field? annotations readyAnnotation with
          | some mark =>
              let annotations := Entries.erase annotations (.str readyAnnotation)
              let metadata := Entries.put metadata (.str "annotations") (.mapping below annotations)
              (Entries.put body (.str "metadata") (.mapping access metadata), Ready.ofValue mark)
          | none => (body, .unspecified)
      | _ => (body, .unspecified)
  | _ => (body, .unspecified)

def resourceOf (name body : Value) : Except Failure (String × Resource) :=
  match name with
  | .str name =>
      if name.isEmpty then refused .blankName
      else
        match body.entries? with
        | none => refused (.notObject name)
        | some body =>
            match body.asTree with
            | .error cause => .error (.fault cause)
            | .ok body =>
                if !hasText body "apiVersion" then refused (.apiVersionUnset name)
                else if !hasText body "kind" then refused (.kindUnset name)
                else
                  let (body, ready) := withoutReadiness body
                  .ok (name, ⟨body, ready, []⟩)
  | _ => refused .blankName

def setResource (b : Builder) (name body : Value) : Except Failure Builder := do
  let (name, r) ← resourceOf name body
  return { b with composed := Entries.put b.composed (.str name) r }

def badDetail (key : Value) : Failure :=
  match key.shown with
  | .ok key => .invalidResource (.detailNotText key)
  | .error cause => .fault cause

def checkDetails : List (Value × Value) → Except Failure Unit
  | [] => .ok ()
  | (.str _, .str _) :: rest => checkDetails rest
  | (key, _) :: _ => .error (badDetail key)

def setDetails (b : Builder) (details : Value) : Except Failure Builder :=
  match details.entries? with
  | none => refused (.detailsNotObject details.typeName)
  | some details =>
      match checkDetails details with
      | .error failure => .error failure
      | .ok () => .ok { b with details }

def status (b : Builder) : Entries :=
  match Entries.field? b.composite "status" with
  | some (.mapping _ entries) => entries
  | _ => []

def updateStatus (b : Builder) (status : Value) : Except Failure Builder :=
  match status.entries? with
  | none => refused (.statusNotObject status.typeName)
  | some entries =>
      match entries.asTree with
      | .error cause => .error (.fault cause)
      | .ok entries =>
          let merged := Entries.deepMerge b.status entries
          .ok { b with
            composite := Entries.put b.composite (.str "status") (.object merged)
            updates := b.updates ++ [entries] }

def apply (b : Builder) : Call → Except Failure Builder
  | .setResource name body => b.setResource name body
  | .setDetails details => b.setDetails details
  | .updateStatus status => b.updateStatus status

/-- Carries out calls until one is refused. -/
def applyAll (b : Builder) : List Call → Except Failure Builder
  | [] => .ok b
  | call :: rest => do applyAll (← b.apply call) rest

/-- The composite that was built; nothing at all is none. -/
def compositeResource (b : Builder) : Option Resource :=
  if b.composite.isEmpty && b.details.isEmpty then none
  else some ⟨b.composite, .unspecified, b.details⟩

def desired (b : Builder) : State := ⟨b.compositeResource, b.composed⟩

def response (b : Builder) (tag : Value) (ttl : Int) (results : List Result) : Response :=
  ⟨tag, b.desired, b.updates, results, ttl⟩

end Builder

end FunctionPipeline

import FunctionPipeline.Document.Order
import FunctionPipeline.Invocation.Response

/-!
Plans: what a pass changes, by the names of composed resources. A name that is new is created, one
that persists is updated, and one that disappears is deleted. A failed response plans nothing, and
the pass is to be tried again.
-/

namespace FunctionPipeline

/-- A plan, with the resources that are desired, the composite as it is to be, and the connection
details to publish. -/
structure Plan where
  create : List Value := []
  update : List Value := []
  delete : List Value := []
  desired : Resources := []
  composite : Option Resource := none
  details : Entries := []
  retry : Bool := false
  deriving Repr, Inhabited

namespace Plan

def nameLe (a b : Value) : Except Fault Bool := do return !(← b.precedes a)

def insertName (name : Value) : List Value → Except Fault (List Value)
  | [] => .ok [name]
  | other :: rest => do
      if ← nameLe name other then return name :: other :: rest
      return other :: (← insertName name rest)

def inOrder : List Value → Except Fault (List Value)
  | [] => .ok []
  | name :: rest => do insertName name (← inOrder rest)

def hasName (resources : Resources) (name : Value) : Bool := (Entries.get? resources name).isSome

def statusOf (body : Entries) : Entries :=
  match Entries.field? body "status" with
  | some (.mapping _ entries) => entries
  | _ => []

def updated (composite : Option Resource) (response : Response) : Resource :=
  let before := composite.getD { body := [] }
  let status := response.applyStatus (statusOf before.body)
  ⟨Entries.put before.body (.str "status") (.object status), .unspecified, before.details⟩

def ofResponse (observed : State) (response : Response) : Except Fault Plan := do
  if response.failed then return { composite := observed.composite, retry := true }
  let wanted := response.desired.resources
  let create ← inOrder ((Entries.keys wanted).filter fun n => !hasName observed.resources n)
  let update ← inOrder ((Entries.keys wanted).filter fun n => hasName observed.resources n)
  let delete ← inOrder ((Entries.keys observed.resources).filter fun n => !hasName wanted n)
  return {
    create, update, delete
    desired := wanted
    composite :=
      if response.statusUpdates.isEmpty then observed.composite
      else some (updated observed.composite response)
    details := response.connectionDetails }

def isNoop (p : Plan) : Bool := p.create.isEmpty && p.update.isEmpty && p.delete.isEmpty

def toValue (p : Plan) : Value :=
  .object [(.str "retry", .bool p.retry), (.str "create", .list p.create),
    (.str "update", .list p.update), (.str "delete", .list p.delete),
    (.str "resources", State.resourcesValue p.desired),
    (.str "composite", (p.composite.map Resource.toValue).getD .null),
    (.str "connectionDetails", .object p.details)]

/-- The state that is observed after a plan was carried out. -/
def stateAfter (p : Plan) (observed : State) : State :=
  if p.retry then observed else ⟨p.composite, p.desired⟩

end Plan

end FunctionPipeline

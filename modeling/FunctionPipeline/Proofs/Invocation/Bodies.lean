import FunctionPipeline.Proofs.Invocation.AllOrNothing

/-!
Bodies that return. A body may do what it likes about a call that fails, and such a call changes
nothing, so the builder that a body returns is settled by the calls it made. Its invocation answers
with the response of that builder.
-/

namespace FunctionPipeline

namespace Builder

/-- A builder after calls, each of which is carried out if it is accepted and else changes nothing,
whatever it fails with. -/
def after (b : Builder) (calls : List Call) : Builder :=
  calls.foldl (fun b c => (b.apply c).toOption.getD b) b

theorem after_eq_changes (b : Builder) (calls : List Call) :
    b.after calls = (changesOf calls).foldl changed b := by
  induction calls generalizing b with
  | nil => rfl
  | cons c rest ih =>
      rw [after, List.foldl_cons]
      cases hchange : c.change with
      | error failure =>
          rw [apply_of_refusal b hchange, changesOf_cons_error rest hchange]
          exact ih b
      | ok change =>
          rw [apply_of_change b hchange, changesOf_cons_ok rest hchange]
          exact ih (b.changed change)

/-- What a run that stops at the first call that fails comes to, if it comes to its end. -/
theorem after_of_applyAll {b built : Builder} {calls : List Call}
    (h : b.applyAll calls = .ok built) : b.after calls = built := by
  rw [applyAll_of_accepted b calls (accepted_of_applyAll h)] at h
  rw [after_eq_changes]
  exact Except.ok.inj h

/-- What calls make of a builder can be read off the accepted ones. -/
theorem made_after (b : Builder) (calls : List Call) :
    Made b (calls.filter Call.isAccepted) (b.after calls) := by
  have haccepted : ∀ c ∈ calls.filter Call.isAccepted, c.isAccepted = true :=
    fun c hc => (List.mem_filter.mp hc).2
  rw [after_eq_changes, ← changesOf_filter_accepted]
  exact made_of_accepted b _ haccepted

end Builder

/-- A body returns from a builder on an activity, having made calls. -/
def Body.Returns (body : Body) (b : Builder) (calls : List Call) (a after : Activity) : Prop :=
  (body b).runOn a = (.ok (b.after calls), after)

/-- What the replay of a reply comes to is a builder after calls. -/
theorem Engine.Replays.eq_after {e : Engine} {b built : Builder} {reply : Reply}
    (h : e.Replays b reply built) : ∃ calls, built = b.after calls := by
  obtain ⟨_, _, calls, -, -, -, -, -, hall⟩ := h
  exact ⟨calls, (Builder.after_of_applyAll hall).symm⟩

/-- The engine's body returns only after calls, those that the function's reply records. -/
theorem Engine.returns_of_execute {e : Engine} {source : String} {request : Request}
    {transpile : Bool} {b built : Builder} {a after : Activity}
    (h : (e.execute source request transpile b).runOn a = (.ok built, after)) :
    ∃ calls, Body.Returns (e.execute source request transpile) b calls a after := by
  obtain ⟨calls, rfl⟩ := (execute_ends h).eq_after
  exact ⟨calls, h⟩

namespace Invocation

def returned (request : Request) (ttl : Int) (calls : List Call) : Response :=
  ((Builder.ofState request.desired).after calls).response request.tag ttl []

/-- The invocation of a body that returns answers with what its calls made. -/
theorem invoke_of_returns {body : Body} {request : Request} {calls : List Call}
    {a after : Activity} (h : body.Returns (Builder.ofState request.desired) calls a after)
    (ttl : Int) :
    (invoke body request ttl).runOn a = (.ok (returned request ttl calls), after) := by
  rw [invoke, Operation.runOn_bind, Operation.runOn_outcome]
  rw [Body.Returns] at h
  rw [h]
  rfl

theorem normalForm_returned (request : Request) (ttl : Int) (calls : List Call) :
    Builder.NormalForm request.desired (calls.filter Call.isAccepted)
      (returned request ttl calls) :=
  Builder.normalForm_of_made (Builder.made_after _ calls) request.tag ttl []

end Invocation

end FunctionPipeline

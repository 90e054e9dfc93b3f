import FunctionPipeline.Invocation.Builder
import FunctionPipeline.Proofs.Document.Trees

/-!
What a call asks for does not depend on the builder it is made on. So a run of calls is a fold of
changes over the builder, and the runs that stop at the first refusal and those that carry on past
refusals differ only in which calls they take.
-/

namespace FunctionPipeline

inductive Change where
  | resource (name : String) (r : Resource)
  | details (entries : Entries)
  | status (update : Entries)

namespace Call

def change : Call → Except Failure Change
  | .setResource name body => (Builder.resourceOf name body).map fun (name, r) => .resource name r
  | .setDetails details =>
      match details.entries? with
      | none => Builder.refused (.detailsNotObject details.typeName)
      | some entries => (Builder.checkDetails entries).map fun _ => .details entries
  | .updateStatus status =>
      match status.entries? with
      | none => Builder.refused (.statusNotObject status.typeName)
      | some entries => (entries.asTree.mapError Failure.fault).map .status

def isAccepted (c : Call) : Bool := c.change.isOk

end Call

def changesOf (calls : List Call) : List Change := calls.filterMap fun c => c.change.toOption

theorem changesOf_cons_ok {c : Call} {change : Change} (rest : List Call)
    (h : c.change = .ok change) : changesOf (c :: rest) = change :: changesOf rest := by
  rw [changesOf, List.filterMap_cons, h]
  rfl

theorem changesOf_cons_error {c : Call} {failure : Failure} (rest : List Call)
    (h : c.change = .error failure) : changesOf (c :: rest) = changesOf rest := by
  rw [changesOf, List.filterMap_cons, h]
  rfl

theorem Call.isAccepted_of_change {c : Call} {change : Change} (h : c.change = .ok change) :
    c.isAccepted = true := by
  rw [Call.isAccepted, h]
  rfl

theorem Call.exists_change {c : Call} (h : c.isAccepted = true) :
    ∃ change, c.change = .ok change := by
  rw [Call.isAccepted] at h
  cases hchange : c.change with
  | error failure => rw [hchange] at h; cases h
  | ok change => exact ⟨change, rfl⟩

theorem Call.not_isAccepted_of_refusal {c : Call} {failure : Failure}
    (h : c.change = .error failure) : c.isAccepted = false := by
  rw [Call.isAccepted, h]
  rfl

theorem changesOf_filter_accepted (calls : List Call) :
    changesOf (calls.filter Call.isAccepted) = changesOf calls := by
  induction calls with
  | nil => rfl
  | cons c rest ih =>
      cases hchange : c.change with
      | error failure =>
          rw [List.filter_cons_of_neg (by simp [Call.not_isAccepted_of_refusal hchange]), ih,
            changesOf_cons_error rest hchange]
      | ok change =>
          rw [List.filter_cons_of_pos (Call.isAccepted_of_change hchange),
            changesOf_cons_ok _ hchange, ih, changesOf_cons_ok rest hchange]

namespace Builder

def changed (b : Builder) : Change → Builder
  | .resource name r => { b with composed := Entries.put b.composed (.str name) r }
  | .details entries => { b with details := entries }
  | .status update =>
      { b with
        composite := Entries.put b.composite (.str "status")
          (.object (Entries.deepMerge b.status update))
        updates := b.updates ++ [update] }

/-- A call makes the change it asks for, on every builder. -/
theorem apply_eq_change (b : Builder) (c : Call) : b.apply c = c.change.map b.changed := by
  cases c with
  | setResource name body =>
      simp only [apply, setResource, Call.change]
      cases resourceOf name body <;> rfl
  | setDetails details =>
      simp only [apply, setDetails, Call.change]
      cases details.entries? with
      | none => rfl
      | some entries =>
          simp only
          cases checkDetails entries <;> rfl
  | updateStatus status =>
      simp only [apply, updateStatus, Call.change]
      cases status.entries? with
      | none => rfl
      | some entries =>
          simp only
          cases entries.asTree <;> rfl

theorem apply_of_change {c : Call} {change : Change} (b : Builder) (h : c.change = .ok change) :
    b.apply c = .ok (b.changed change) := by
  rw [apply_eq_change, h]
  rfl

theorem apply_of_refusal {c : Call} {failure : Failure} (b : Builder)
    (h : c.change = .error failure) : b.apply c = .error failure := by
  rw [apply_eq_change, h]
  rfl

/-- Carries out calls one by one and goes on after a call that was refused as an invalid resource.
Any other failure ends the run. -/
def carryOn (b : Builder) : List Call → Except Failure Builder
  | [] => .ok b
  | call :: rest =>
      match b.apply call with
      | .ok b => carryOn b rest
      | .error failure =>
          if failure.isA .invalidResource then carryOn b rest else .error failure

/-- A run of accepted calls makes their changes one after the other. -/
theorem applyAll_of_accepted (b : Builder) (calls : List Call)
    (h : ∀ c ∈ calls, c.isAccepted = true) :
    b.applyAll calls = .ok ((changesOf calls).foldl changed b) := by
  induction calls generalizing b with
  | nil => rfl
  | cons c rest ih =>
      have hc : c.isAccepted = true := h c (by simp)
      cases hchange : c.change with
      | error failure => exact absurd hc (by simp [Call.not_isAccepted_of_refusal hchange])
      | ok change =>
          have hrest := ih (b.changed change) fun c hmem => h c (by simp [hmem])
          rw [changesOf_cons_ok rest hchange]
          simp only [applyAll, apply_of_change b hchange, List.foldl_cons]
          exact hrest

/-- Only accepted calls can be carried out to the end. -/
theorem accepted_of_applyAll {b after : Builder} {calls : List Call}
    (h : b.applyAll calls = .ok after) : ∀ c ∈ calls, c.isAccepted = true := by
  induction calls generalizing b with
  | nil => simp
  | cons c rest ih =>
      cases hchange : c.change with
      | error failure =>
          simp only [applyAll, apply_of_refusal b hchange] at h
          cases h
      | ok change =>
          simp only [applyAll, apply_of_change b hchange] at h
          intro call hmem
          rcases List.mem_cons.mp hmem with rfl | hrest
          · exact Call.isAccepted_of_change hchange
          · exact ih h call hrest

/-- A run that carries on makes the changes of the accepted calls, unless a call fails otherwise
than by being refused. -/
theorem carryOn_of_refusals (b : Builder) (calls : List Call)
    (h : ∀ c ∈ calls, ∀ failure, c.change = .error failure → failure.isA .invalidResource = true) :
    b.carryOn calls = .ok ((changesOf calls).foldl changed b) := by
  induction calls generalizing b with
  | nil => rfl
  | cons c rest ih =>
      have hrest : ∀ call ∈ rest, ∀ failure, call.change = .error failure →
          failure.isA .invalidResource = true := fun call hmem => h call (by simp [hmem])
      cases hchange : c.change with
      | error failure =>
          have hrefused := h c (by simp) failure hchange
          rw [changesOf_cons_error rest hchange]
          simp only [carryOn, apply_of_refusal b hchange, hrefused, if_true]
          exact ih b hrest
      | ok change =>
          rw [changesOf_cons_ok rest hchange]
          simp only [carryOn, apply_of_change b hchange, List.foldl_cons]
          exact ih (b.changed change) hrest

/-- In a run that comes to its end every failure was a refusal. -/
theorem refusals_of_carryOn {b after : Builder} {calls : List Call}
    (h : b.carryOn calls = .ok after) :
    ∀ c ∈ calls, ∀ failure, c.change = .error failure →
      failure.isA .invalidResource = true := by
  induction calls generalizing b with
  | nil => simp
  | cons c rest ih =>
      intro call hmem failure hfailure
      cases hchange : c.change with
      | error cause =>
          simp only [carryOn, apply_of_refusal b hchange] at h
          split at h
          next hrefused =>
            rcases List.mem_cons.mp hmem with rfl | hrest
            · exact Except.error.inj (hfailure.symm.trans hchange) ▸ hrefused
            · exact ih h call hrest failure hfailure
          next => cases h
      | ok change =>
          simp only [carryOn, apply_of_change b hchange] at h
          rcases List.mem_cons.mp hmem with rfl | hrest
          · rw [hchange] at hfailure
            cases hfailure
          · exact ih h call hrest failure hfailure

/-- Carrying on past refusals is the same as making only the accepted calls. -/
theorem carryOn_eq_applyAll {b after : Builder} {calls : List Call}
    (h : b.carryOn calls = .ok after) :
    b.applyAll (calls.filter Call.isAccepted) = .ok after := by
  have hend := carryOn_of_refusals b calls (refusals_of_carryOn h)
  have haccepted : ∀ c ∈ calls.filter Call.isAccepted, c.isAccepted = true :=
    fun c hc => (List.mem_filter.mp hc).2
  rw [applyAll_of_accepted b _ haccepted, changesOf_filter_accepted, ← hend, h]

end Builder

end FunctionPipeline

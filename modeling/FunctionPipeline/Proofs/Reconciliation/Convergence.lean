import FunctionPipeline.Proofs.Document.RepeatedMerges
import FunctionPipeline.Proofs.Reconciliation.Names

/-!
Reconciliation converges. The status updates of a response, applied to a status that has them
already, change nothing, so the state that a plan leads to is one that the same response plans no
creation and no deletion for, and no other composite.
-/

namespace FunctionPipeline

namespace Response

/-- Applying the updates of a response twice is applying them once, for every status and every list
of updates that are mappings. -/
theorem applyStatus_applyStatus {r : Response}
    (hupdates : ∀ update ∈ r.statusUpdates, Entries.IsWellKeyed update) {status : Entries}
    (hstatus : Entries.IsWellKeyed status) :
    r.applyStatus (r.applyStatus status) = r.applyStatus status := by
  have hthawed : Entries.IsWellKeyed (Entries.thaw status) :=
    (Value.entriesWellKeyed_withAccessEntries .writable status).trans hstatus
  have hwritable : Entries.thaw (Entries.thaw status) = Entries.thaw status :=
    Value.withAccessEntries_withAccessEntries _ _ status
  unfold applyStatus
  rw [Entries.foldl_deepMerge hwritable, Entries.thaw_mergeAll hwritable,
    Entries.foldl_deepMerge (Entries.thaw_mergeAll hwritable)]
  exact Entries.mergeAll_mergeAll hthawed hwritable hupdates

end Response

namespace Plan

def sortedNames (s : State) (p : String → Bool) : List Value :=
  ((s.textNames.filter p).insertionSort (· ≤ ·)).map .str

/-- The plan for a response that has not failed, in states whose resources have texts as names. -/
theorem ofResponse_of_names {observed : State} {response : Response}
    (hok : response.failed = false) (hobserved : observed.HasTextNames)
    (hwanted : response.desired.HasTextNames) :
    ofResponse observed response = .ok {
      create := sortedNames response.desired fun n => !hasName observed.resources (.str n)
      update := sortedNames response.desired fun n => hasName observed.resources (.str n)
      delete := sortedNames observed fun n => !hasName response.desired.resources (.str n)
      desired := response.desired.resources
      composite := if response.statusUpdates.isEmpty then observed.composite
        else some (updated observed.composite response)
      details := response.connectionDetails } := by
  simp only [ofResponse, hok, State.keys_eq_textNames hobserved, State.keys_eq_textNames hwanted,
    inOrder_filter_texts, bind, Except.bind, pure, Except.pure]
  rfl

theorem sortedNames_of_none {s : State} {p : String → Bool}
    (h : ∀ n ∈ s.textNames, p n = false) : sortedNames s p = [] := by
  rw [sortedNames, List.filter_eq_nil_iff.mpr fun n hn => by simp [h n hn]]
  rfl

/-- Every name of some resources leads to one of them. -/
theorem hasName_of_mem {s : State} (h : s.HasTextNames) {name : String}
    (hname : name ∈ s.textNames) : hasName s.resources (.str name) = true := by
  refine Entries.get?_isSome_iff.mpr ⟨.str name, ?_, Value.str_equals_self name⟩
  rw [State.keys_eq_textNames h]
  exact List.mem_map_of_mem hname

/-- The status that is found in an updated composite is the one that was put there. -/
theorem statusOf_updated (composite : Option Resource) (response : Response) :
    statusOf (updated composite response).body =
      response.applyStatus (statusOf (composite.getD { body := [] }).body) := by
  simp only [updated, statusOf, Entries.field?_put_self]

theorem updated_updated {composite : Option Resource} {response : Response}
    (hupdates : ∀ update ∈ response.statusUpdates, Entries.IsWellKeyed update)
    (hbody : ∀ r, composite = some r → Entries.IsWellKeyed r.body) :
    updated (some (updated composite response)) response = updated composite response := by
  have hstatus : Entries.IsWellKeyed (statusOf (composite.getD { body := [] }).body) := by
    have hbody' : Entries.IsWellKeyed (composite.getD { body := [] }).body := by
      cases composite with
      | none => rfl
      | some r => exact hbody r rfl
    unfold statusOf
    split
    next access entries hfield => exact hbody'.get? hfield
    next => rfl
  have hagain := Response.applyStatus_applyStatus hupdates hstatus
  rw [updated, Option.getD_some, statusOf_updated, hagain]
  simp only [updated, Entries.put_put_self]

/-- A response is planned once: in the state that its plan leads to there is nothing to create or
to delete, all its resources are there to be updated, and the composite stays as planned. The status
updates, which may write a scalar over a mapping and a mapping over a scalar, leave every status
that has them as it is. -/
theorem plan_converges (observed : State) (response : Response) (hok : response.failed = false)
    (hobserved : observed.HasTextNames) (hwanted : response.desired.HasTextNames)
    (hcomposite : ∀ r, observed.composite = some r → Entries.IsWellKeyed r.body)
    (hupdates : ∀ update ∈ response.statusUpdates, Entries.IsWellKeyed update) :
    (∀ status, Entries.IsWellKeyed status →
      response.applyStatus (response.applyStatus status) = response.applyStatus status) ∧
    ∃ p again, ofResponse observed response = .ok p ∧
      ofResponse ⟨p.composite, p.desired⟩ response = .ok again ∧
      again.create = [] ∧ again.delete = [] ∧
      (∃ names : List String, again.update = names.map .str ∧ names.Pairwise (· ≤ ·) ∧
        (names.map Value.str).Perm (Entries.keys response.desired.resources)) ∧
      again.composite = p.composite := by
  refine ⟨fun status => Response.applyStatus_applyStatus hupdates, ?_⟩
  have hthere : ∀ n ∈ response.desired.textNames,
      hasName response.desired.resources (.str n) = true := fun n hn => hasName_of_mem hwanted hn
  have hmissing : ∀ n ∈ response.desired.textNames,
      (!hasName response.desired.resources (.str n)) = false := fun n hn => by simp [hthere n hn]
  let composite := if response.statusUpdates.isEmpty then observed.composite
    else some (updated observed.composite response)
  have hnext : State.HasTextNames ⟨composite, response.desired.resources⟩ := hwanted
  refine ⟨_, _, ofResponse_of_names hok hobserved hwanted, ofResponse_of_names hok hnext hwanted,
    sortedNames_of_none hmissing, sortedNames_of_none hmissing, ⟨_, rfl, ?_, ?_⟩, ?_⟩
  · exact List.pairwise_insertionSort _ _
  · rw [List.filter_eq_self.mpr hthere, State.keys_eq_textNames hwanted]
    exact (List.perm_insertionSort _ _).map _
  · -- without updates both plans keep the composite, else the second finds the first one's status
    dsimp only [composite]
    split
    · rfl
    · rw [updated_updated hupdates hcomposite]

def zonedState : State :=
  ⟨some { body := [(.str "status", .object [(.str "zone", .object [(.str "old", .int 1)])])] },
    [(.str "queue", { body := [] })]⟩

/-- A response that writes a scalar over the zone and a mapping over the scalar again. -/
def rezonedResponse : Response where
  desired := ⟨none, [(.str "store", { body := [] }), (.str "bucket", { body := [] })]⟩
  statusUpdates := [[(.str "zone", .str "none")], [(.str "zone", .object [(.str "new", .int 2)])]]
  ttl := 60

theorem plan_converges_rezoned :
    rezonedResponse.failed = false ∧ zonedState.HasTextNames ∧
      rezonedResponse.desired.HasTextNames ∧
      (∀ r, zonedState.composite = some r → Entries.IsWellKeyed r.body) ∧
      (∀ update ∈ rezonedResponse.statusUpdates, Entries.IsWellKeyed update) ∧
      ∃ p again, ofResponse zonedState rezonedResponse = .ok p ∧
        ofResponse ⟨p.composite, p.desired⟩ rezonedResponse = .ok again ∧
        again.create = [] ∧ again.delete = [] ∧
        (∃ names : List String, again.update = names.map .str ∧ names.Pairwise (· ≤ ·) ∧
          (names.map Value.str).Perm (Entries.keys rezonedResponse.desired.resources)) ∧
        again.composite = p.composite := by
  have hobserved : zonedState.HasTextNames := by simp [State.HasTextNames, zonedState]
  have hwanted : rezonedResponse.desired.HasTextNames := by
    simp [State.HasTextNames, rezonedResponse]
  have hcomposite : ∀ r, zonedState.composite = some r → Entries.IsWellKeyed r.body := by
    rintro r ⟨⟩
    rfl
  have hupdates : ∀ update ∈ rezonedResponse.statusUpdates, Entries.IsWellKeyed update := by
    intro update hupdate
    rcases List.mem_cons.mp hupdate with rfl | hrest
    · rfl
    · obtain rfl := List.mem_singleton.mp hrest
      rfl
  exact ⟨rfl, hobserved, hwanted, hcomposite, hupdates,
    (plan_converges zonedState rezonedResponse rfl hobserved hwanted hcomposite hupdates).2⟩

end Plan

end FunctionPipeline

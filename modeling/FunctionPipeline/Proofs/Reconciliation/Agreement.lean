import FunctionPipeline.Proofs.Invocation.Bodies
import FunctionPipeline.Proofs.Reconciliation.Convergence

/-!
Builder and planner agree. The builder merges each status update into its composite when the call
is made; the planner merges the recorded updates into the observed composite afterwards. Both look
for a status in their own way, and from one state they come to the same body.
-/

namespace FunctionPipeline

namespace Entries

/-- Merging writable copies of overrides, one after the other, has the effect of merging them. -/
theorem foldl_deepMerge_map_thaw (base : Entries) (overrides : List Entries) :
    (overrides.map thaw).foldl deepMerge base = overrides.foldl deepMerge base := by
  induction overrides generalizing base with
  | nil => rfl
  | cons es rest ih =>
      simp only [List.map_cons, List.foldl_cons, deepMerge_thaw]
      exact ih (deepMerge base es)

/-- The first merge copies the base anyway. -/
theorem foldl_deepMerge_thaw {overrides : List Entries} (h : overrides ≠ []) (base : Entries) :
    overrides.foldl deepMerge (thaw base) = overrides.foldl deepMerge base := by
  cases overrides with
  | nil => exact absurd rfl h
  | cons es rest =>
      have hbase : thaw (thaw base) = thaw base :=
        Value.withAccessEntries_withAccessEntries _ _ base
      rw [List.foldl_cons, List.foldl_cons, deepMerge, hbase, deepMerge]

end Entries

/-- The names of a built state are texts if those of the state that it was built on are. -/
theorem Builder.NormalForm.hasTextNames {seed : State} {calls : List Call} {r : Response}
    (h : NormalForm seed calls r) (hseed : seed.HasTextNames) : r.desired.HasTextNames := by
  intro e he
  have hkey : e.1 ∈ Entries.keys r.desired.resources := List.mem_map_of_mem he
  rw [h.order, List.mem_append] at hkey
  rcases hkey with hold | hnew
  · obtain ⟨earlier, hmem, hname⟩ := List.mem_map.mp hold
    obtain ⟨name, htext⟩ := hseed earlier hmem
    exact ⟨name, hname.symm.trans htext⟩
  · obtain ⟨name, -, hname⟩ := List.mem_map.mp hnew
    exact ⟨name, hname.symm⟩

namespace Builder

theorem withUpdates_ne_nil {updates : List Entries} (h : updates ≠ []) (body : Entries) :
    withUpdates body updates ≠ [] := by
  cases updates with
  | nil => exact absurd rfl h
  | cons update rest =>
      intro hnil
      -- the status that was written is found again
      have hstatus : Entries.field? (withUpdates body (update :: rest)) "status" ≠ none := by
        rw [withUpdates, Entries.field?_put_self]
        · simp
        · simp
      rw [hnil] at hstatus
      exact hstatus rfl

/-- The body that updates are applied to is the composite's, or else an empty one. -/
theorem body_getD (s : State) : (s.composite.getD { body := [] }).body = seedBody s := by
  rw [seedBody]
  cases s.composite <;> rfl

theorem compositeOf_of_body {body : Entries} (h : body ≠ []) (details : Entries) :
    compositeOf body details = some ⟨body, .unspecified, details⟩ := by
  cases body with
  | nil => exact absurd rfl h
  | cons => rfl

end Builder

namespace Plan

/-- The planned body is the observed one after the updates, if what was recorded of them are their
writable copies. -/
theorem body_updated {observed : State} {response : Response} {updates : List Entries}
    (hrecord : response.statusUpdates = updates.map Entries.thaw) (hupdates : updates ≠ []) :
    (updated observed.composite response).body =
      Builder.withUpdates (Builder.seedBody observed) updates := by
  cases updates with
  | nil => exact absurd rfl hupdates
  | cons update rest =>
      rw [updated, Response.applyStatus, hrecord, Entries.foldl_deepMerge_map_thaw,
        Entries.foldl_deepMerge_thaw (List.cons_ne_nil update rest), Builder.body_getD]
      rfl

/-- An accepted status update is one of the updates that are given. -/
theorem exists_statusGiven {calls : List Call} {status : Value}
    (hmem : Call.updateStatus status ∈ calls)
    (haccepted : (Call.updateStatus status).isAccepted = true) :
    (calls.filter Call.isAccepted).filterMap Call.statusGiven? ≠ [] := by
  obtain ⟨change, hchange⟩ := Call.exists_change haccepted
  rcases Builder.change_cases hchange with
    ⟨_, _, _, heq, -⟩ | ⟨_, _, heq, -⟩ | ⟨_, given, heq, hgiven, -⟩
  · cases heq
  · cases heq
  · cases heq
    have hfound : given ∈ (calls.filter Call.isAccepted).filterMap Call.statusGiven? :=
      List.mem_filterMap.mpr ⟨_, List.mem_filter.mpr ⟨hmem, haccepted⟩, hgiven⟩
    exact List.ne_nil_of_mem hfound

/-- From one state, the planner comes to the body that the builder came to call by call: the same
values in the same order of keys, whatever status the state has or lacks and whatever the updates
do to it. -/
theorem planned_body_eq_built {seed : State} (hnames : seed.HasTextNames) {calls : List Call}
    (hupdate : ∃ status, Call.updateStatus status ∈ calls ∧
      (Call.updateStatus status).isAccepted = true)
    (tag : Value) (ttl : Int) {results : List Result}
    (hresults : ∀ r ∈ results, r.severity ≠ .fatal) :
    let response := ((Builder.ofState seed).after calls).response tag ttl results
    ∃ p planned built, ofResponse seed response = .ok p ∧ p.composite = some planned ∧
      response.desired.composite = some built ∧ planned.body = built.body := by
  intro response
  have hform : Builder.NormalForm seed (calls.filter Call.isAccepted) response :=
    Builder.normalForm_of_made (Builder.made_after _ calls) tag ttl results
  obtain ⟨status, hmem, haccepted⟩ := hupdate
  have hsome := exists_statusGiven hmem haccepted
  have hok : response.failed = false := by
    simpa [Response.failed, response, Builder.response] using hresults
  have hrecorded : response.statusUpdates.isEmpty = false := by
    rw [hform.updates]
    simpa using hsome
  have hplan := ofResponse_of_names hok hnames (hform.hasTextNames hnames)
  simp only [hrecorded, Bool.false_eq_true, if_false] at hplan
  have hthere := Builder.compositeOf_of_body
    (Builder.withUpdates_ne_nil hsome (Builder.seedBody seed))
  exact ⟨_, _, _, hplan, rfl, hform.composite.trans (hthere _), body_updated hform.updates hsome⟩

/-- Calls that write a scalar over the zone and a mapping over the scalar again, with a refused call
between. -/
def rezoningCalls : List Call :=
  [.updateStatus (.object [(.str "zone", .str "none")]), .updateStatus (.list []),
    .updateStatus (.object [(.str "zone", .object [(.str "new", .int 2)])])]

theorem planned_body_eq_built_rezoning :
    zonedState.HasTextNames ∧
      (∃ status, Call.updateStatus status ∈ rezoningCalls ∧
        (Call.updateStatus status).isAccepted = true) ∧
      (∀ r ∈ ([⟨.warning, "slow"⟩] : List Result), r.severity ≠ .fatal) ∧
      let response := ((Builder.ofState zonedState).after rezoningCalls).response .null 60
        [⟨.warning, "slow"⟩]
      ∃ p planned built, ofResponse zonedState response = .ok p ∧ p.composite = some planned ∧
        response.desired.composite = some built ∧ planned.body = built.body := by
  have hnames : zonedState.HasTextNames := by simp [State.HasTextNames, zonedState]
  have hupdate : ∃ status, Call.updateStatus status ∈ rezoningCalls ∧
      (Call.updateStatus status).isAccepted = true :=
    ⟨.object [(.str "zone", .str "none")], by simp [rezoningCalls], rfl⟩
  have hresults : ∀ r ∈ ([⟨.warning, "slow"⟩] : List Result), r.severity ≠ .fatal := by simp
  exact ⟨hnames, hupdate, hresults, planned_body_eq_built hnames hupdate .null 60 hresults⟩

end Plan

end FunctionPipeline

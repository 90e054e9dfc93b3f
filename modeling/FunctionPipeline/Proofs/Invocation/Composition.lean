import FunctionPipeline.Proofs.Invocation.NormalForm
import FunctionPipeline.Proofs.State.RoundTrip

/-!
Pipeline steps compose. A builder of writable trees stays one under accepted calls, so the desired
state it builds is read back from its document unchanged, and a builder seeded with that state is
the first one without its record of updates. That record is all that tells two steps from one.
-/

namespace FunctionPipeline.Builder

structure IsTree (b : Builder) : Prop where
  composite : Entries.IsTree b.composite
  details : Entries.IsTree b.details
  composed : ∀ e ∈ b.composed, e.2.IsTree

theorem isTree_ofState {seed : State} (h : seed.IsTree) : (ofState seed).IsTree := by
  unfold ofState
  cases hcomposite : seed.composite with
  | none => exact ⟨Entries.isTree_nil, Entries.isTree_nil, h.resources⟩
  | some r =>
      have hr := h.composite r hcomposite
      exact ⟨hr.body, hr.details, h.resources⟩

private theorem isTree_checkedDetails {given : Entries} (h : checkDetails given = .ok ()) :
    Entries.IsTree given := by
  fun_induction checkDetails given with
  | case1 => exact Entries.isTree_nil
  | case2 key text rest ih => exact Entries.isTree_cons.mpr ⟨⟨rfl, rfl⟩, ih h⟩
  | case3 => cases h

private theorem isTree_put {resources : Resources} (h : ∀ e ∈ resources, e.2.IsTree)
    (key : Value) {r : Resource} (hr : r.IsTree) :
    ∀ e ∈ Entries.put resources key r, e.2.IsTree := by
  induction resources with
  | nil => simpa [Entries.put] using hr
  | cons e rest ih =>
      obtain ⟨k, w⟩ := e
      have hrest : ∀ e ∈ rest, e.2.IsTree := fun e he => h e (by simp [he])
      simp only [Entries.put]
      split
      · intro e he
        rcases List.mem_cons.mp he with rfl | hmem
        · exact hr
        · exact hrest e hmem
      · intro e he
        rcases List.mem_cons.mp he with rfl | hmem
        · exact h (k, w) (by simp)
        · exact ih hrest e hmem

private theorem isTree_status {b : Builder} (h : b.IsTree) : Entries.IsTree b.status := by
  unfold status
  split
  next access entries hfield => exact (Entries.isTree_mapping (h.composite.get? hfield)).2
  next => exact Entries.isTree_nil

/-- The change of an accepted call keeps a builder of trees. -/
theorem IsTree.changed {b : Builder} (h : b.IsTree) {c : Call} {change : Change}
    (hchange : c.change = .ok change) : (b.changed change).IsTree := by
  rcases change_cases hchange with
    ⟨name, body, given, -, -, hreference, rfl⟩ | ⟨details, given, -, -, hcheck, rfl⟩ |
    ⟨status, given, -, -, hreference, rfl⟩
  · have hr : (storedResource given).IsTree := ⟨isTree_storedBody hreference, Entries.isTree_nil⟩
    exact ⟨h.composite, h.details, isTree_put h.composed (.str name) hr⟩
  · exact ⟨h.composite, isTree_checkedDetails hcheck, h.composed⟩
  · have hthaw : Value.entryReference given.thaw = false := (Entries.isTree_thaw hreference).1
    have hmerged := (isTree_status h).deepMerge hthaw
    exact ⟨h.composite.put _ (Entries.isTree_object.mpr hmerged), h.details, h.composed⟩

/-- A run of accepted calls keeps a builder of trees. -/
theorem IsTree.changes {b : Builder} (h : b.IsTree) (calls : List Call)
    (haccepted : ∀ c ∈ calls, c.isAccepted = true) :
    ((changesOf calls).foldl Builder.changed b).IsTree := by
  induction calls generalizing b with
  | nil => exact h
  | cons c rest ih =>
      have hrest : ∀ call ∈ rest, call.isAccepted = true :=
        fun call hmem => haccepted call (by simp [hmem])
      cases hchange : c.change with
      | error failure =>
          exact absurd (haccepted c (by simp)) (by simp [Call.not_isAccepted_of_refusal hchange])
      | ok change =>
          rw [changesOf_cons_ok rest hchange]
          exact ih (h.changed hchange) hrest

theorem isTree_desired {b : Builder} (h : b.IsTree) : b.desired.IsTree := by
  refine ⟨?_, h.composed⟩
  intro r hr
  simp only [desired, compositeResource] at hr
  split at hr
  · cases hr
  · cases hr
    exact ⟨h.composite, h.details⟩

/-- A builder seeded with what another one built is that one without its record of updates. -/
theorem ofState_desired (b : Builder) : ofState b.desired = { b with updates := [] } := by
  obtain ⟨composite, details, composed, updates⟩ := b
  unfold desired compositeResource ofState
  cases composite with
  | nil => cases details <;> rfl
  | cons => rfl

/-- The record of updates has no part in what is built. -/
theorem desired_changes_updates (b : Builder) (changes : List Change) (updates : List Entries) :
    (changes.foldl changed { b with updates }).desired = (changes.foldl changed b).desired := by
  induction changes generalizing b updates with
  | nil => rfl
  | cons change rest ih =>
      cases change with
      | resource name r => exact ih (b.changed (.resource name r)) updates
      | details entries => exact ih (b.changed (.details entries)) updates
      | status update => exact ih (b.changed (.status update)) (updates ++ [update])

/-- Two steps that hand the desired state on as a document build what one step builds that makes
the calls of both: every call is accepted in either arrangement, and body, details, readiness and
all orders agree. States are kept as writable trees, which every document is read into. -/
theorem steps_compose (seed : State) (hseed : seed.IsTree) (first second : List Call)
    (hfirst : ∀ c ∈ first, c.isAccepted = true) (hsecond : ∀ c ∈ second, c.isAccepted = true)
    (tag : Value) (ttl : Int) (results : List Result) :
    ∃ (built handed : Builder) (next : State) (whole : Builder),
      (ofState seed).applyAll first = .ok built ∧
      State.ofValue (built.response tag ttl results).desired.toValue = .ok next ∧
      (ofState next).applyAll second = .ok handed ∧
      (ofState seed).applyAll (first ++ second) = .ok whole ∧
      (handed.response tag ttl results).desired = (whole.response tag ttl results).desired := by
  let built := (changesOf first).foldl changed (ofState seed)
  have hbuilt : (ofState seed).applyAll first = .ok built :=
    applyAll_of_accepted (ofState seed) first hfirst
  have htree : built.IsTree := (isTree_ofState hseed).changes first hfirst
  have hnext : State.ofValue built.desired.toValue = .ok built.desired :=
    State.ofValue_toValue (isTree_desired htree)
  have hboth : ∀ c ∈ first ++ second, c.isAccepted = true := by
    intro c hc
    rcases List.mem_append.mp hc with hmem | hmem
    · exact hfirst c hmem
    · exact hsecond c hmem
  have hwhole := applyAll_of_accepted (ofState seed) (first ++ second) hboth
  have hsplit : changesOf (first ++ second) = changesOf first ++ changesOf second :=
    List.filterMap_append
  rw [hsplit, List.foldl_append] at hwhole
  have hhanded := applyAll_of_accepted (ofState built.desired) second hsecond
  refine ⟨built, _, built.desired, _, hbuilt, hnext, hhanded, hwhole, ?_⟩
  rw [ofState_desired]
  exact desired_changes_updates built (changesOf second) []

theorem isTree_seeded : seededState.IsTree := by
  refine ⟨?_, ?_⟩
  · rintro r ⟨⟩
    exact ⟨⟨rfl, rfl⟩, ⟨rfl, rfl⟩⟩
  · simp only [seededState, List.forall_mem_cons]
    exact ⟨⟨⟨rfl, rfl⟩, ⟨rfl, rfl⟩⟩, ⟨⟨rfl, rfl⟩, ⟨rfl, rfl⟩⟩, by simp⟩

theorem steps_compose_status :
    seededState.IsTree ∧ ∃ (built handed : Builder) (next : State) (whole : Builder),
      (ofState seededState).applyAll [.setDetails (.object [(.str "user", .str "guest")])] =
        .ok built ∧
      State.ofValue (built.response .null 60 []).desired.toValue = .ok next ∧
      (ofState next).applyAll [.updateStatus (.object [(.str "zone", .str "west")])] = .ok handed ∧
      (ofState seededState).applyAll [.setDetails (.object [(.str "user", .str "guest")]),
        .updateStatus (.object [(.str "zone", .str "west")])] = .ok whole ∧
      (handed.response .null 60 []).desired = (whole.response .null 60 []).desired :=
  ⟨isTree_seeded, steps_compose seededState isTree_seeded
    [.setDetails (.object [(.str "user", .str "guest")])]
    [.updateStatus (.object [(.str "zone", .str "west")])] (by simp; rfl) (by simp; rfl)
    .null 60 []⟩

end FunctionPipeline.Builder

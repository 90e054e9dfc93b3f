import FunctionPipeline.Proofs.Invocation.Untouched
import FunctionPipeline.Proofs.Reconciliation.Convergence

/-!
A plan partitions names. What is desired is created or updated, what is observed is updated or
deleted, and no name is in two of the lists or twice in one. Of the observed composite only the
status is written. A failed response plans none of this.
-/

namespace FunctionPipeline

/-- A state as mappings make it: composed resources under texts, no two of which are the same. -/
structure State.IsNamed (s : State) : Prop where
  texts : s.HasTextNames
  distinct : s.textNames.Nodup

namespace Plan

/-- Three lists of names, each strictly increasing, that have no name in common and split what is
desired and what is observed. -/
structure IsPartition (observed desired create update delete : List String) : Prop where
  create_increasing : create.Pairwise (· < ·)
  update_increasing : update.Pairwise (· < ·)
  delete_increasing : delete.Pairwise (· < ·)
  create_update : create.Disjoint update
  create_delete : create.Disjoint delete
  update_delete : update.Disjoint delete
  desired_iff : ∀ name, name ∈ desired ↔ name ∈ create ∨ name ∈ update
  observed_iff : ∀ name, name ∈ observed ↔ name ∈ update ∨ name ∈ delete

/-- A composite as it is planned: there if it was observed, with all of its body but the status in
the order in which it stands. -/
def KeepsBesideStatus (observed planned : Option Resource) : Prop :=
  ∀ r, observed = some r → ∃ s, planned = some s ∧ s.details = r.details ∧
    Entries.erase s.body (.str "status") = Entries.erase r.body (.str "status")

private def chosen (names : List String) (p : String → Bool) : List String :=
  (names.filter p).insertionSort (· ≤ ·)

private theorem mem_chosen {names : List String} {p : String → Bool} {name : String} :
    name ∈ chosen names p ↔ name ∈ names ∧ p name = true := by
  rw [chosen, List.mem_insertionSort, List.mem_filter]

/-- Distinct names in order are strictly increasing. -/
private theorem chosen_increasing {names : List String} (h : names.Nodup) (p : String → Bool) :
    (chosen names p).Pairwise (· < ·) := by
  have hdistinct : (chosen names p).Nodup :=
    (List.perm_insertionSort _ _).nodup_iff.mpr (h.filter p)
  have hordered : (chosen names p).Pairwise (· ≤ ·) := List.pairwise_insertionSort _ _
  exact (hordered.and hdistinct).imp fun h => lt_of_le_of_ne h.1 h.2

/-- A name leads to a resource exactly if it is one of the names. -/
theorem hasName_iff {s : State} (h : s.HasTextNames) (name : String) :
    hasName s.resources (.str name) = true ↔ name ∈ s.textNames := by
  rw [hasName, Entries.get?_isSome_iff, State.keys_eq_textNames h]
  constructor
  · rintro ⟨key, hkey, hequal⟩
    obtain ⟨other, hother, rfl⟩ := List.mem_map.mp hkey
    obtain rfl : other = name := Value.str.inj ((Value.str_equals_iff _ _).mp hequal)
    exact hother
  · intro hname
    exact ⟨.str name, List.mem_map_of_mem hname, Value.str_equals_self name⟩

/-- The names that a plan is made of split those of both states. -/
theorem isPartition_of_named {observed desired : State} (hobserved : observed.IsNamed)
    (hdesired : desired.IsNamed) :
    IsPartition observed.textNames desired.textNames
      (chosen desired.textNames fun n => !hasName observed.resources (.str n))
      (chosen desired.textNames fun n => hasName observed.resources (.str n))
      (chosen observed.textNames fun n => !hasName desired.resources (.str n)) where
  create_increasing := chosen_increasing hdesired.distinct _
  update_increasing := chosen_increasing hdesired.distinct _
  delete_increasing := chosen_increasing hobserved.distinct _
  create_update := by
    intro name hcreate hupdate
    rw [mem_chosen, Bool.not_eq_true'] at hcreate
    rw [mem_chosen, hcreate.2] at hupdate
    exact Bool.false_ne_true hupdate.2
  create_delete := by
    intro name hcreate hdelete
    rw [mem_chosen] at hcreate
    rw [mem_chosen, (hasName_iff hdesired.texts name).mpr hcreate.1] at hdelete
    exact Bool.false_ne_true hdelete.2
  update_delete := by
    intro name hupdate hdelete
    rw [mem_chosen] at hupdate
    rw [mem_chosen, (hasName_iff hdesired.texts name).mpr hupdate.1] at hdelete
    exact Bool.false_ne_true hdelete.2
  desired_iff := by
    intro name
    simp only [mem_chosen]
    cases hasName observed.resources (.str name) <;> simp
  observed_iff := by
    intro name
    simp only [mem_chosen, hasName_iff hobserved.texts, Bool.not_eq_true', ← Bool.not_eq_true,
      hasName_iff hdesired.texts]
    tauto

theorem keepsBesideStatus_updated (composite : Option Resource) (response : Response) :
    KeepsBesideStatus composite (some (updated composite response)) := by
  rintro r rfl
  exact ⟨_, rfl, rfl, Entries.erase_put_str _ _ _⟩

/-- A response that has a fatal result plans that the pass is tried again, and nothing else. Any
other response plans each name once: to be created if it is desired only, to be updated if it is
observed as well, and to be deleted if it is observed only. -/
theorem plan_partitions_names (observed : State) (response : Response)
    (hobserved : observed.IsNamed) (hdesired : response.desired.IsNamed) :
    ∃ p, ofResponse observed response = .ok p ∧
      ((∃ result ∈ response.results, result.severity = .fatal) →
        p.retry = true ∧ p.create = [] ∧ p.update = [] ∧ p.delete = [] ∧ p.desired = [] ∧
          p.composite = observed.composite) ∧
      ((∀ result ∈ response.results, result.severity ≠ .fatal) →
        p.retry = false ∧
          (∃ create update delete : List String, p.create = create.map .str ∧
            p.update = update.map .str ∧ p.delete = delete.map .str ∧
            IsPartition observed.textNames response.desired.textNames create update delete) ∧
          p.desired = response.desired.resources ∧
          KeepsBesideStatus observed.composite p.composite) := by
  have hfatal : response.failed = true ↔ ∃ result ∈ response.results, result.severity = .fatal := by
    simp [Response.failed]
  cases hfailed : response.failed with
  | true =>
      refine ⟨{ composite := observed.composite, retry := true }, ?_, ?_, ?_⟩
      · rw [ofResponse, hfailed]
        rfl
      · exact fun _ => ⟨rfl, rfl, rfl, rfl, rfl, rfl⟩
      · intro hnone
        obtain ⟨result, hresult, hsevere⟩ := hfatal.mp hfailed
        exact absurd hsevere (hnone result hresult)
  | false =>
      refine ⟨_, ofResponse_of_names hfailed hobserved.texts hdesired.texts, ?_, ?_⟩
      · intro hsome
        rw [hfatal.mpr hsome] at hfailed
        cases hfailed
      · intro _
        refine ⟨rfl, ⟨_, _, _, rfl, rfl, rfl, isPartition_of_named hobserved hdesired⟩, rfl, ?_⟩
        dsimp only
        split
        · exact fun r hr => ⟨r, hr, rfl, rfl⟩
        · exact keepsBesideStatus_updated _ _

/-- A response that desires a resource of the zoned state beside a new one. -/
def widenedResponse : Response where
  desired := ⟨none, [(.str "topic", { body := [] }), (.str "queue", { body := [] })]⟩
  statusUpdates := [[(.str "zone", .str "none")]]
  results := [⟨.warning, "slow"⟩]
  ttl := 60

theorem plan_partitions_names_widened :
    zonedState.IsNamed ∧ widenedResponse.desired.IsNamed ∧
      (∀ result ∈ widenedResponse.results, result.severity ≠ .fatal) ∧
      ∃ p, ofResponse zonedState widenedResponse = .ok p ∧ p.retry = false ∧
        (∃ create update delete : List String, p.create = create.map .str ∧
          p.update = update.map .str ∧ p.delete = delete.map .str ∧
          IsPartition ["queue"] ["topic", "queue"] create update delete) ∧
        p.desired = widenedResponse.desired.resources ∧
        KeepsBesideStatus zonedState.composite p.composite := by
  have hobserved : zonedState.IsNamed :=
    ⟨by simp [State.HasTextNames, zonedState], by decide⟩
  have hdesired : widenedResponse.desired.IsNamed :=
    ⟨by simp [State.HasTextNames, widenedResponse], by decide⟩
  have hresults : ∀ result ∈ widenedResponse.results, result.severity ≠ .fatal := by decide
  obtain ⟨p, hp, -, hplan⟩ := plan_partitions_names zonedState widenedResponse hobserved hdesired
  exact ⟨hobserved, hdesired, hresults, p, hp, hplan hresults⟩

end Plan

end FunctionPipeline

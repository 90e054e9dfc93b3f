import Mathlib.Data.List.Nodup
import FunctionPipeline.Proofs.Manifest.RoundTrip

/-!
The names of a manifest's steps. They differ, so a name finds the one step that has it, and a step
is added just if its name is not in use. What steps are asked for one after another adds those that
are the first with their name, in order.
-/

namespace FunctionPipeline

def Step.IsChecked (s : Step) : Prop := ∃ name function, ofParts name function s.input = .ok s

structure Step.IsNamed (s : Step) : Prop where
  name : isBlankText s.name = false
  function : isBlankText s.function = false

theorem Step.isNamed_of_ofParts {name function : Value} {input : FunctionInput} {s : Step}
    (h : ofParts name function input = .ok s) : s.IsNamed := by
  obtain ⟨⟨-, hname⟩, ⟨-, hfunction⟩, -⟩ := of_ofParts h
  exact ⟨hname, hfunction⟩

theorem Step.isChecked_iff {s : Step} : s.IsChecked ↔ s.IsNamed := by
  constructor
  · rintro ⟨name, function, hmade⟩
    exact isNamed_of_ofParts hmade
  · intro h
    refine ⟨.str s.name, .str s.function, ?_⟩
    simp [ofParts, namesOf, nameIn?, h.name, h.function, bind, Except.bind, pure, Except.pure]

namespace Manifest

def names (m : Manifest) : List String := m.steps.map Step.name

private theorem eraseDups_eq_nil_iff {xs : List String} : xs.eraseDups = [] ↔ xs = [] := by
  cases xs with
  | nil => simp
  | cons x xs => simp [List.eraseDups_cons]

theorem repeated_eq_nil_iff {names : List String} : repeated names = [] ↔ names.Nodup := by
  have hsorted : repeated names = [] ↔ (names.filter fun name => names.count name > 1) = [] := by
    rw [repeated, ← List.length_eq_zero_iff, List.length_mergeSort, List.length_eq_zero_iff,
      eraseDups_eq_nil_iff]
  rw [hsorted, List.filter_eq_nil_iff, List.nodup_iff_count_le_one]
  constructor
  · intro h name
    by_cases hmem : name ∈ names
    · simpa using h name hmem
    · simp [List.count_eq_zero_of_not_mem hmem]
  · intro h name _
    simpa using h name

/-- One name more that is in use is the only one that is repeated. -/
theorem repeated_append_of_mem {names : List String} {name : String} (hnodup : names.Nodup)
    (hmem : name ∈ names) : repeated (names ++ [name]) = [name] := by
  have hone : names.count name = 1 := List.count_eq_one_of_mem hnodup hmem
  have hmore : ∀ other ∈ names ++ [name],
      decide ((names ++ [name]).count other > 1) = (other == name) := by
    intro other _
    by_cases heq : other = name
    · simp [heq, hone]
    · have hle : names.count other ≤ 1 := List.nodup_iff_count_le_one.mp hnodup other
      have hne : ¬ name = other := fun h => heq h.symm
      rw [beq_eq_false_iff_ne.mpr heq]
      simpa [hne] using hle
  rw [repeated, List.filter_congr hmore, List.filter_beq, List.count_append, hone]
  simp [List.eraseDups_cons]

theorem checked_of_nodup {m : Manifest} (h : m.names.Nodup) : m.checked = .ok m := by
  have hnone : repeated (m.steps.map Step.name) = [] := repeated_eq_nil_iff.mpr h
  rw [checked, hnone]

theorem nodup_of_checked {m n : Manifest} (h : m.checked = .ok n) : n.names.Nodup := by
  obtain rfl := eq_of_checked h
  rw [checked] at h
  split at h
  next hnone => exact repeated_eq_nil_iff.mp hnone
  next => cases h

theorem names_append (m : Manifest) (added : List Step) :
    ({ m with steps := m.steps ++ added } : Manifest).names = m.names ++ added.map Step.name :=
  List.map_append

theorem withStep_of_used {m : Manifest} {step : Step} (hnodup : m.names.Nodup)
    (hused : step.name ∈ m.names) : m.withStep step = .error (.duplicateSteps [step.name]) := by
  have hnames : repeated ((m.steps ++ [step]).map Step.name) = [step.name] := by
    rw [List.map_append]
    exact repeated_append_of_mem hnodup hused
  rw [withStep, checked, hnames]

theorem withStep_of_new {m : Manifest} {step : Step} (hnodup : m.names.Nodup)
    (hnew : step.name ∉ m.names) :
    m.withStep step = .ok { m with steps := m.steps ++ [step] } := by
  apply checked_of_nodup
  rw [names_append]
  exact hnodup.append (List.nodup_singleton _) (by simpa using hnew)

/-- The manifest after steps were asked for one by one. A call that fails leaves it as it was. -/
def extendedBy (m : Manifest) : List Step → Manifest
  | [] => m
  | step :: added =>
      match m.withStep step with
      | .ok extended => extended.extendedBy added
      | .error _ => m.extendedBy added

/-- Of the steps that are asked for those whose names are not in use when their turn comes. -/
def newSteps (used : List String) : List Step → List Step
  | [] => []
  | step :: added =>
      if step.name ∈ used then newSteps used added
      else step :: newSteps (used ++ [step.name]) added

theorem subset_newSteps (used : List String) (added : List Step) : newSteps used added ⊆ added := by
  induction added generalizing used with
  | nil => simp [newSteps]
  | cons step added ih =>
      rw [newSteps]
      split
      · exact List.Subset.trans (ih used) (List.subset_cons_self _ _)
      · exact List.cons_subset_cons _ (ih _)

theorem nodup_newSteps {used : List String} (added : List Step) (hnodup : used.Nodup) :
    (used ++ (newSteps used added).map Step.name).Nodup := by
  induction added generalizing used with
  | nil => simpa [newSteps] using hnodup
  | cons step added ih =>
      rw [newSteps]
      split
      next => exact ih hnodup
      next hnew =>
        have hmore : (used ++ [step.name]).Nodup :=
          hnodup.append (List.nodup_singleton _) (by simpa using hnew)
        simpa [List.append_assoc] using ih hmore

/-- Steps that are asked for one after another add the new ones among them and nothing else. -/
theorem extendedBy_eq {m : Manifest} (hnodup : m.names.Nodup) (added : List Step) :
    m.extendedBy added = { m with steps := m.steps ++ newSteps m.names added } := by
  induction added generalizing m with
  | nil => simp [extendedBy, newSteps]
  | cons step added ih =>
      by_cases hused : step.name ∈ m.names
      · rw [extendedBy, withStep_of_used hnodup hused, newSteps, if_pos hused]
        exact ih hnodup
      · have hextended := withStep_of_new hnodup hused
        rw [extendedBy, hextended, newSteps, if_neg hused]
        simp only
        rw [ih (nodup_of_checked hextended), names_append]
        simp

theorem names_extendedBy {m : Manifest} (hnodup : m.names.Nodup) (added : List Step) :
    (m.extendedBy added).names = m.names ++ (newSteps m.names added).map Step.name := by
  rw [extendedBy_eq hnodup, names_append]

theorem step?_of_mem {m : Manifest} {s : Step} (hnodup : m.names.Nodup) (hs : s ∈ m.steps) :
    m.step? s.name = some s := by
  have hfound : (m.step? s.name).isSome := by
    simpa [step?, List.find?_isSome] using ⟨s, hs, rfl⟩
  obtain ⟨t, ht⟩ := Option.isSome_iff_exists.mp hfound
  have hname : t.name = s.name := by simpa using List.find?_some ht
  have hsame := List.inj_on_of_nodup_map hnodup (List.mem_of_find?_eq_some ht) hs hname
  rw [ht, hsame]

theorem step?_eq_none_iff {m : Manifest} {name : String} :
    m.step? name = none ↔ name ∉ m.names := by
  simp [step?, names]

/-- Steps with names of their own, by which they are found and further steps are let in. -/
structure IsNamed (m : Manifest) : Prop where
  named : ∀ s ∈ m.steps, s.IsNamed
  distinct : m.names.Nodup
  found : ∀ s ∈ m.steps, m.step? s.name = some s
  notFound : ∀ name, name ∉ m.names → m.step? name = none
  used : ∀ s : Step, s.name ∈ m.names → m.withStep s = .error (.duplicateSteps [s.name])
  new : ∀ s : Step, s.name ∉ m.names → m.withStep s = .ok { m with steps := m.steps ++ [s] }

theorem isNamed_of_nodup {m : Manifest} (hnamed : ∀ s ∈ m.steps, s.IsNamed)
    (hnodup : m.names.Nodup) : m.IsNamed where
  named := hnamed
  distinct := hnodup
  found := fun _ => step?_of_mem hnodup
  notFound := fun _ => step?_eq_none_iff.mpr
  used := fun _ => withStep_of_used hnodup
  new := fun _ => withStep_of_new hnodup

/-- Any run of calls keeps it so. -/
theorem IsNamed.extendedBy {m : Manifest} {added : List Step} (h : m.IsNamed)
    (hadded : ∀ s ∈ added, s.IsChecked) : (m.extendedBy added).IsNamed := by
  apply isNamed_of_nodup
  · rw [extendedBy_eq h.distinct]
    intro s hs
    rcases List.mem_append.mp hs with hold | hnew
    · exact h.named s hold
    · exact Step.isChecked_iff.mp (hadded s (subset_newSteps _ _ hnew))
  · rw [names_extendedBy h.distinct]
    exact nodup_newSteps added h.distinct

end Manifest

end FunctionPipeline

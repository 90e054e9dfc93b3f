import FunctionPipeline.Proofs.Document.Keys
import FunctionPipeline.Reconciliation.Plan
import Mathlib.Data.List.Sort
import Mathlib.Data.String.Basic

/-!
Names of resources in a plan. Texts can always be put in order, by code points, and no name is lost
or doubled by it.
-/

namespace FunctionPipeline

namespace State

def HasTextNames (s : State) : Prop := ∀ e ∈ s.resources, ∃ name, e.1 = .str name

def textNames (s : State) : List String :=
  s.resources.filterMap fun e =>
    match e.1 with
    | .str name => some name
    | _ => none

theorem keys_eq_textNames {s : State} (h : s.HasTextNames) :
    Entries.keys s.resources = s.textNames.map .str := by
  obtain ⟨composite, resources⟩ := s
  unfold HasTextNames textNames at *
  induction resources with
  | nil => rfl
  | cons e rest ih =>
      obtain ⟨k, r⟩ := e
      obtain ⟨⟨name, rfl⟩, hrest⟩ := List.forall_mem_cons.mp h
      have hkeys := ih hrest
      simp only [Entries.keys, List.map_cons, List.filterMap_cons] at hkeys ⊢
      rw [hkeys]

end State

namespace Plan

theorem nameLe_texts (s t : String) : nameLe (.str s) (.str t) = .ok (decide (s ≤ t)) := by
  simp only [nameLe, Value.precedes, bind, Except.bind, pure, Except.pure, Except.ok.injEq]
  rw [← decide_not, decide_eq_decide, not_lt]

theorem insertName_texts (s : String) (names : List String) :
    insertName (.str s) (names.map .str) = .ok ((names.orderedInsert (· ≤ ·) s).map .str) := by
  induction names with
  | nil => rfl
  | cons t rest ih =>
      simp only [List.map_cons, insertName, nameLe_texts, ih, bind, Except.bind, pure, Except.pure,
        List.orderedInsert_cons, decide_eq_true_eq]
      split <;> rfl

/-- Names that are texts are put in order by insertion. -/
theorem inOrder_texts (names : List String) :
    inOrder (names.map .str) = .ok ((names.insertionSort (· ≤ ·)).map .str) := by
  induction names with
  | nil => rfl
  | cons s rest ih =>
      simp only [List.map_cons, inOrder, ih, bind, Except.bind, insertName_texts,
        List.insertionSort_cons]

/-- Of names that are texts any choice can be put in order. -/
theorem inOrder_filter_texts (names : List String) (p : Value → Bool) :
    inOrder ((names.map .str).filter p) =
      .ok (((names.filter fun s => p (.str s)).insertionSort (· ≤ ·)).map .str) := by
  rw [← inOrder_texts, List.filter_map]
  rfl

end Plan

end FunctionPipeline

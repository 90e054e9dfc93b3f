import FunctionPipeline.Proofs.SourceMap.Lookup

/-!
The segments of a line in the order of the text. Reading mappings sorts each line, so that a column
falls into one of its segments. Among the segments as they were given that one is the nearest: the
last of those with the greatest column that is reached, or the first of those with the least column
if none is reached. No sorting and no search is needed to say so, and only one segment is nearest.
-/

namespace FunctionPipeline

namespace Mappings

def linesAsGiven (last : Origin) : List (List Char) → Except Error (List (List Segment))
  | [] => .ok []
  | line :: rest => do
      let (found, last) ← segments 0 last (pieces ',' line)
      let others ← linesAsGiven last rest
      return found :: others

def decodeAsGiven (mappings : List Char) : Except Error (List (List Segment)) :=
  linesAsGiven ⟨0, 0, 0⟩ (pieces ';' mappings)

theorem lines_eq_map (last : Origin) (texts : List (List Char)) :
    lines last texts = (linesAsGiven last texts).map (List.map inOrder) := by
  induction texts generalizing last with
  | nil => rfl
  | cons text texts ih =>
      rw [lines, linesAsGiven]
      cases segments 0 last (pieces ',' text) with
      | error cause => rfl
      | ok found =>
          simp only [bind, Except.bind, ih]
          cases linesAsGiven found.2 texts <;> rfl

/-- Mappings are read if they are in the order of the text, and then line by line in the order of
the columns. -/
theorem decode_eq_ok_iff {text : List Char} {found : List (List Segment)} :
    decode text = .ok found ↔
      ∃ given, decodeAsGiven text = .ok given ∧ found = given.map inOrder := by
  rw [decode, decodeAsGiven, lines_eq_map]
  cases linesAsGiven ⟨0, 0, 0⟩ (pieces ';' text) with
  | error cause => simp [Except.map]
  | ok given => simp [Except.map, eq_comm]

theorem IsStablySorted.mem_iff {given sorted : List Segment} (h : IsStablySorted given sorted)
    (t : Segment) : t ∈ sorted ↔ t ∈ given := by
  have hsame := h.stable t.column
  constructor
  · intro hmem
    have hhere : t ∈ sorted.filter fun s => s.column = t.column :=
      List.mem_filter.mpr ⟨hmem, by simp⟩
    rw [hsame] at hhere
    exact (List.mem_filter.mp hhere).1
  · intro hmem
    have hhere : t ∈ given.filter fun s => s.column = t.column :=
      List.mem_filter.mpr ⟨hmem, by simp⟩
    rw [← hsame] at hhere
    exact (List.mem_filter.mp hhere).1

end Mappings

namespace SourceMap

/-- The segment nearest to a column among segments in any order. -/
inductive IsNearest (column : Int) (given : List Segment) (s : Segment) : Prop
  /-- The last one with the greatest column that is reached. -/
  | reached {before after : List Segment} (hgiven : given = before ++ s :: after)
      (hreached : s.column ≤ column)
      (hgreatest : ∀ t ∈ given, t.column ≤ column → t.column ≤ s.column)
      (hlast : ∀ t ∈ after, t.column ≠ s.column)
  /-- The first one with the least column, if none is reached. -/
  | beyond {before after : List Segment} (hgiven : given = before ++ s :: after)
      (hbeyond : ∀ t ∈ given, column < t.column) (hleast : ∀ t ∈ given, s.column ≤ t.column)
      (hfirst : ∀ t ∈ before, t.column ≠ s.column)

theorem filter_eq_nil_of_ne {segments : List Segment} {column : Int}
    (h : ∀ t ∈ segments, t.column ≠ column) :
    segments.filter (fun t => t.column = column) = [] := by
  rw [List.filter_eq_nil_iff]
  intro t ht
  simpa using h t ht

/-- The last segment of its column is the last one that is left of that column. -/
theorem last_of_column_iff {given : List Segment} {s : Segment} :
    (given.filter fun t => t.column = s.column).getLast? = some s ↔
      ∃ before after, given = before ++ s :: after ∧ ∀ t ∈ after, t.column ≠ s.column := by
  constructor
  · intro h
    obtain ⟨others, hothers⟩ := List.getLast?_eq_some_iff.mp h
    obtain ⟨front, back, rfl, -, hback⟩ := List.filter_eq_append_iff.mp hothers
    obtain ⟨gap, after, rfl, -, -, hafter⟩ := List.filter_eq_cons_iff.mp hback
    refine ⟨front ++ gap, after, by simp, fun t ht => ?_⟩
    simpa using List.filter_eq_nil_iff.mp hafter t ht
  · rintro ⟨before, after, rfl, hafter⟩
    simp [filter_eq_nil_of_ne hafter]

/-- The first segment of its column is the first one that is left of that column. -/
theorem first_of_column_iff {given : List Segment} {s : Segment} :
    (given.filter fun t => t.column = s.column).head? = some s ↔
      ∃ before after, given = before ++ s :: after ∧ ∀ t ∈ before, t.column ≠ s.column := by
  constructor
  · intro h
    rw [List.head?_filter, List.find?_eq_some_iff_append] at h
    obtain ⟨-, before, after, rfl, hbefore⟩ := h
    exact ⟨before, after, rfl, fun t ht => by simpa using hbefore t ht⟩
  · rintro ⟨before, after, rfl, hbefore⟩
    simp [filter_eq_nil_of_ne hbefore]

theorem IsNearest.mem {column : Int} {given : List Segment} {s : Segment}
    (h : IsNearest column given s) : s ∈ given := by
  cases h with
  | reached hgiven => simp [hgiven]
  | beyond hgiven => simp [hgiven]

theorem IsNearest.unique {column : Int} {given : List Segment} {s t : Segment}
    (hs : IsNearest column given s) (ht : IsNearest column given t) : s = t := by
  have hmem := hs.mem
  have hmem' := ht.mem
  cases hs with
  | reached hgiven hreached hgreatest hlast =>
      cases ht with
      | reached hgiven' hreached' hgreatest' hlast' =>
          have hle := hgreatest t hmem' hreached'
          have hge := hgreatest' s hmem hreached
          have hcolumn : s.column = t.column := by omega
          have hfound := last_of_column_iff.mpr ⟨_, _, hgiven, hlast⟩
          have hfound' := last_of_column_iff.mpr ⟨_, _, hgiven', hlast'⟩
          rw [hcolumn, hfound'] at hfound
          exact (Option.some.inj hfound).symm
      | beyond hgiven' hbeyond' =>
          have hlt := hbeyond' s hmem
          omega
  | beyond hgiven hbeyond hleast hfirst =>
      cases ht with
      | reached hgiven' hreached' =>
          have hlt := hbeyond t hmem'
          omega
      | beyond hgiven' hbeyond' hleast' hfirst' =>
          have hle := hleast t hmem'
          have hge := hleast' s hmem
          have hcolumn : s.column = t.column := by omega
          have hfound := first_of_column_iff.mpr ⟨_, _, hgiven, hfirst⟩
          have hfound' := first_of_column_iff.mpr ⟨_, _, hgiven', hfirst'⟩
          rw [hcolumn, hfound'] at hfound
          exact (Option.some.inj hfound).symm

/-- The segment that a column falls into on a line in order is the nearest of those given. -/
theorem isNearest_of_fallsInto {given sorted : List Segment} {column : Int} {s : Segment}
    (hsorted : Mappings.IsStablySorted given sorted) (h : FallsInto sorted column s) :
    IsNearest column given s := by
  obtain ⟨before, after, rfl, hstart, hafter⟩ := h
  obtain ⟨-, hrest, hacross⟩ := List.pairwise_append.mp hsorted.ordered
  have hcolumn := hsorted.stable s.column
  by_cases hreached : s.column ≤ column
  · -- what comes after the segment is not reached, so nothing of its column is there
    have hnone : ∀ t ∈ after, t.column ≠ s.column := by
      intro t ht
      have hlt := hafter t ht
      omega
    have hlast := last_of_column_iff.mpr ⟨before, after, rfl, hnone⟩
    rw [hcolumn] at hlast
    obtain ⟨front, back, hgiven, hback⟩ := last_of_column_iff.mp hlast
    refine .reached hgiven hreached (fun t ht hle => ?_) hback
    rcases List.mem_append.mp ((hsorted.mem_iff t).mpr ht) with hbefore | hback
    · exact hacross t hbefore s (by simp)
    · rcases List.mem_cons.mp hback with rfl | hmem
      · exact Int.le_refl _
      · have hlt := hafter t hmem
        omega
  · obtain rfl : before = [] := hstart.resolve_left hreached
    obtain ⟨hleast, -⟩ := List.pairwise_cons.mp hrest
    have hfirst := (first_of_column_iff (s := s)).mpr ⟨[], after, rfl, by simp⟩
    rw [hcolumn] at hfirst
    obtain ⟨front, back, hgiven, hfront⟩ := first_of_column_iff.mp hfirst
    have hall : ∀ t ∈ given, s.column ≤ t.column := by
      intro t ht
      rcases List.mem_cons.mp ((hsorted.mem_iff t).mpr ht) with rfl | hmem
      · exact Int.le_refl _
      · exact hleast t hmem
    refine .beyond hgiven (fun t ht => ?_) hall hfront
    have hle := hall t ht
    omega

/-- A column falls into one of the segments of a line that has any, and that one is the nearest. -/
theorem exists_nearest {given : List Segment} (h : given ≠ []) (column : Int) :
    ∃ s, FallsInto (Mappings.inOrder given) column s ∧ IsNearest column given s := by
  have hordered := Mappings.isStablySorted_inOrder given
  obtain ⟨first, hfirst⟩ := List.exists_mem_of_ne_nil given h
  have hne := List.ne_nil_of_mem ((hordered.mem_iff first).mpr hfirst)
  obtain ⟨s, hchosen⟩ := exists_chosen hne fun start => start ≤ column
  have hfalls := fallsInto_of_chosen hordered.ordered hchosen
  exact ⟨s, hfalls, isNearest_of_fallsInto hordered hfalls⟩

end SourceMap

end FunctionPipeline

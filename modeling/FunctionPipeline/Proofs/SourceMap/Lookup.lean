import FunctionPipeline.Proofs.Document.LongIntegers
import FunctionPipeline.Proofs.SourceMap.Mappings
import FunctionPipeline.Proofs.Tool.Operations
import FunctionPipeline.SourceMap.Lookup
import Mathlib.Data.List.TakeWhile

/-!
Looking up a place in a source map. The segments of a line are in order, so a column falls into one
of them, and the place is covered if that one comes from one of the sources. A map whose segments
count their sources from 0 on answers with the place that covers, or with none.
-/

namespace FunctionPipeline

namespace Mappings

/-- Every line of mappings is in the order of its columns. -/
theorem sorted_of_lines {last : Origin} {texts : List (List Char)} {found : List (List Segment)}
    (h : lines last texts = .ok found) :
    ∀ line ∈ found, line.Pairwise fun a b => a.column ≤ b.column := by
  induction texts generalizing last found with
  | nil =>
      cases h
      simp
  | cons text texts ih =>
      rw [lines] at h
      obtain ⟨⟨given, next⟩, -, hrest⟩ := ok_of_bind h
      obtain ⟨others, hothers, hend⟩ := ok_of_bind hrest
      cases hend
      intro line hline
      rcases List.mem_cons.mp hline with rfl | hmem
      · exact (isStablySorted_inOrder given).ordered
      · exact ih hothers line hmem

end Mappings

namespace SourceMap

/-- The segment that a column falls into: the last one that does not start after it, or the first
one if all do. -/
def FallsInto (segments : List Segment) (column : Int) (s : Segment) : Prop :=
  ∃ before after, segments = before ++ s :: after ∧ (s.column ≤ column ∨ before = []) ∧
    ∀ t ∈ after, column < t.column

theorem FallsInto.mem {segments : List Segment} {column : Int} {s : Segment}
    (h : FallsInto segments column s) : s ∈ segments := by
  obtain ⟨before, after, rfl, -, -⟩ := h
  simp

/-- A column falls into one segment at most. -/
theorem FallsInto.unique {segments : List Segment} {column : Int} {s t : Segment}
    (hs : FallsInto segments column s) (ht : FallsInto segments column t) : s = t := by
  obtain ⟨before, after, rfl, hstart, hafter⟩ := hs
  obtain ⟨others, rest, hsame, hstart', hrest⟩ := ht
  -- one of the two stands first, and the other one then starts after the column
  rcases List.append_eq_append_iff.mp hsame with ⟨gap, rfl, hgap⟩ | ⟨gap, rfl, hgap⟩
  · cases gap with
    | nil => exact (List.cons.inj hgap).1
    | cons u gap =>
        obtain ⟨rfl, rfl⟩ := List.cons.inj hgap
        have hbeyond := hafter t (by simp)
        rcases hstart' with hle | hempty
        · omega
        · simp at hempty
  · cases gap with
    | nil => exact (List.cons.inj hgap).1.symm
    | cons u gap =>
        obtain ⟨rfl, rfl⟩ := List.cons.inj hgap
        have hbeyond := hrest s (by simp)
        rcases hstart with hle | hempty
        · omega
        · simp at hempty

theorem lt_of_mem_dropWhile {segments : List Segment} (column : Int)
    (hsorted : segments.Pairwise fun a b => a.column ≤ b.column) :
    ∀ t ∈ segments.dropWhile fun s => s.column ≤ column, column < t.column := by
  induction segments with
  | nil => simp
  | cons s rest ih =>
      obtain ⟨hfirst, hrest⟩ := List.pairwise_cons.mp hsorted
      rw [List.dropWhile_cons]
      split
      next => exact ih hrest
      next hbeyond =>
        have hlt : column < s.column := by simpa using hbeyond
        intro t ht
        rcases List.mem_cons.mp ht with rfl | hmem
        · exact hlt
        · exact Int.lt_of_lt_of_le hlt (hfirst t hmem)

/-- The segment that is chosen in a line in order is the one that the column falls into. -/
theorem fallsInto_of_chosen {segments : List Segment} {column : Int} {s : Segment}
    (hsorted : segments.Pairwise fun a b => a.column ≤ b.column)
    (h : chosen (fun start => start ≤ column) segments = some s) :
    FallsInto segments column s := by
  have hsplit := List.takeWhile_append_dropWhile
    (p := fun s : Segment => decide (s.column ≤ column)) (l := segments)
  have hbeyond := lt_of_mem_dropWhile column hsorted
  unfold chosen at h
  split at h
  next last hlast =>
    cases h
    obtain ⟨before, hbefore⟩ := List.getLast?_eq_some_iff.mp hlast
    have hstart : s.column ≤ column := by
      have hmem := List.mem_of_getLast? hlast
      simpa using List.mem_takeWhile_imp hmem
    refine ⟨before, _, ?_, Or.inl hstart, hbeyond⟩
    rw [hbefore, List.append_assoc, List.singleton_append] at hsplit
    exact hsplit.symm
  next hnone =>
    rw [List.getLast?_eq_none_iff.mp hnone, List.nil_append] at hsplit
    obtain ⟨after, hafter⟩ := List.head?_eq_some_iff.mp h
    refine ⟨[], after, hafter, Or.inr rfl, fun t ht => hbeyond t ?_⟩
    rw [hsplit, hafter]
    simp [ht]

def Selects (m : SourceMap) (line column : Int) (s : Segment) : Prop :=
  1 ≤ line ∧ ∃ segments, m.lines[(line - 1).toNat]? = some segments ∧ FallsInto segments column s

theorem Selects.unique {m : SourceMap} {line column : Int} {s t : Segment}
    (hs : m.Selects line column s) (ht : m.Selects line column t) : s = t := by
  obtain ⟨-, segments, hsegments, hfalls⟩ := hs
  obtain ⟨-, others, hothers, hfalls'⟩ := ht
  obtain rfl := Option.some.inj (hsegments.symm.trans hothers)
  exact hfalls.unique hfalls'

/-- Nothing is chosen only where there is nothing. -/
theorem exists_chosen {segments : List Segment} (h : segments ≠ []) (reaches : Int → Bool) :
    ∃ s, chosen reaches segments = some s := by
  unfold chosen
  split
  next s hlast => exact ⟨s, rfl⟩
  next => exact Option.isSome_iff_exists.mp (List.isSome_head?.mpr h)

section

variable {m : SourceMap} {line column : Int}
  (hsorted : ∀ line ∈ m.lines, line.Pairwise fun a b => a.column ≤ b.column)

include hsorted

/-- A column of a line with segments selects one of them. -/
theorem exists_selected {segments : List Segment} (hline : 1 ≤ line)
    (hsegments : m.lines[(line - 1).toNat]? = some segments) (hne : segments ≠ []) (column : Int) :
    ∃ s, chosen (fun start => start ≤ column) segments = some s ∧ m.Selects line column s := by
  obtain ⟨s, hchosen⟩ := exists_chosen hne fun start => start ≤ column
  have hfalls := fallsInto_of_chosen (hsorted segments (List.mem_of_getElem? hsegments)) hchosen
  exact ⟨s, hchosen, hline, segments, hsegments, hfalls⟩

theorem sourceAt_of_selects {s : Segment} (h : m.Selects line column s) :
    m.sourceAt line column = m.placeOf s := by
  obtain ⟨hline, segments, hsegments, hfalls⟩ := id h
  obtain ⟨t, hchosen, ht⟩ :=
    exists_selected hsorted hline hsegments (List.ne_nil_of_mem hfalls.mem) column
  obtain rfl := h.unique ht
  rw [sourceAt, lookUp, if_neg (by omega), hsegments, Option.bind_some, hchosen]

theorem sourceAt_of_not_selects (h : ∀ s, ¬ m.Selects line column s) :
    m.sourceAt line column = .ok none := by
  unfold sourceAt lookUp
  split
  next => rfl
  next hline =>
    cases hsegments : m.lines[(line - 1).toNat]? with
    | none => rfl
    | some segments =>
        cases segments with
        | nil => rfl
        | cons first rest =>
            obtain ⟨s, -, hs⟩ :=
              exists_selected hsorted (by omega) hsegments (List.cons_ne_nil first rest) column
            exact absurd hs (h s)

end

/-- The name of a source as places tell it: after the root, if there is one. -/
def fileOf (m : SourceMap) (name : Value) : Value :=
  match m.root with
  | .str root => if root.isEmpty then name else .str (withoutSlashes root ++ "/" ++ name.text)
  | _ => name

/-- A map covers a position: there is such a line, the segment that the column falls into comes
from one of the sources, and that is the place. -/
inductive Covers (m : SourceMap) (line column : Int) : Location → Prop
  | intro {segments : List Segment} {s : Segment} {origin : Origin} {name : Value}
      (hline : 1 ≤ line) (hsegments : m.lines[(line - 1).toNat]? = some segments)
      (hfalls : FallsInto segments column s) (horigin : s.origin = some origin)
      (hsource : 0 ≤ origin.source) (hname : m.sources[origin.source.toNat]? = some name) :
      Covers m line column ⟨m.fileOf name, .int (origin.line + 1), .int origin.column⟩

theorem Covers.unique {m : SourceMap} {line column : Int} {place other : Location}
    (h : m.Covers line column place) (h' : m.Covers line column other) : place = other := by
  obtain ⟨-, hsegments, hfalls, horigin, -, hname⟩ := h
  obtain ⟨-, hsegments', hfalls', horigin', -, hname'⟩ := h'
  obtain rfl := Option.some.inj (hsegments.symm.trans hsegments')
  obtain rfl := hfalls.unique hfalls'
  obtain rfl := Option.some.inj (horigin.symm.trans horigin')
  obtain rfl := Option.some.inj (hname.symm.trans hname')
  rfl

/-- A map whose root is a text, whose names can be told, and whose lines are in order and count
sources from 0 on. -/
structure IsSound (m : SourceMap) : Prop where
  root : ∃ root, m.root = .str root
  names : ∀ name ∈ m.sources, name.hasLongInteger = false
  sorted : ∀ line ∈ m.lines, line.Pairwise fun a b => a.column ≤ b.column
  sources : ∀ line ∈ m.lines, ∀ s ∈ line, ∀ origin, s.origin = some origin → 0 ≤ origin.source

/-- An origin counts its source from 0 on, and the root can stand before its name. -/
def IsCounted (m : SourceMap) (origin : Origin) : Prop :=
  0 ≤ origin.source ∧ (origin.source < m.sources.length → ∃ root, m.root = .str root)

theorem place_of_counted {index : Int} (h : 0 ≤ index) (length : Nat) :
    (if index < 0 then index + length else index) = (index.toNat : Int) := by
  rw [if_neg (by omega), Int.toNat_of_nonneg h]

/-- The name of the source that an index counts to, behind the root. -/
theorem sourceName_eq {m : SourceMap} {root : String} (hroot : m.root = .str root) {index : Int}
    {place : Nat} (hplace : (if index < 0 then index + m.sources.length else index) = place)
    {name : Value} (hname : m.sources[place]? = some name) :
    m.sourceName index =
      if root.isEmpty then .ok name
      else name.shown.map fun shown => .str (withoutSlashes root ++ "/" ++ shown) := by
  have hnotNegative : ¬ (place : Int) < 0 := by omega
  simp only [sourceName, hplace, hnotNegative, if_false, Int.toNat_natCast, hname, hroot]
  cases hempty : root.isEmpty <;> simp [Value.isTrue, hempty]

/-- A name that can be told is told behind the root. -/
theorem sourceName_of_short {m : SourceMap} (hroot : ∃ root, m.root = .str root) {index : Int}
    {place : Nat} (hplace : (if index < 0 then index + m.sources.length else index) = place)
    {name : Value} (hname : m.sources[place]? = some name) (hshort : name.hasLongInteger = false) :
    m.sourceName index = .ok (m.fileOf name) := by
  obtain ⟨root, hroot⟩ := hroot
  have hshown : name.shown = .ok name.text := by
    rw [Value.shown, hshort]
    rfl
  rw [sourceName_eq hroot hplace hname, hshown, fileOf, hroot]
  dsimp only
  split <;> rfl

/-- What a lookup answers with: the place that covers a position, or none if there is no such
place. -/
def Answers (m : SourceMap) (line column : Int) (answer : Except Fault (Option Location)) : Prop :=
  ∃ place, answer = .ok place ∧ ∀ original, place = some original ↔ m.Covers line column original

theorem answers_some {m : SourceMap} {line column : Int} {place : Location}
    (h : m.Covers line column place) : m.Answers line column (.ok (some place)) := by
  refine ⟨some place, rfl, fun original => ?_⟩
  constructor
  · rintro ⟨⟩
    exact h
  · intro h'
    rw [h.unique h']

theorem answers_none {m : SourceMap} {line column : Int}
    (h : ∀ original, ¬ m.Covers line column original) : m.Answers line column (.ok none) := by
  refine ⟨none, rfl, fun original => ?_⟩
  constructor
  · intro hnone
    cases hnone
  · intro h'
    exact absurd h' (h original)

theorem Covers.selects {m : SourceMap} {line column : Int} {place : Location}
    (h : m.Covers line column place) :
    ∃ s origin name, m.Selects line column s ∧ s.origin = some origin ∧ 0 ≤ origin.source ∧
      m.sources[origin.source.toNat]? = some name := by
  obtain ⟨hline, hsegments, hfalls, horigin, hsource, hname⟩ := h
  exact ⟨_, _, _, ⟨hline, _, hsegments, hfalls⟩, horigin, hsource, hname⟩

/-- The place of a selected segment is what covers the position, if its origin is counted and the
names of the sources can be told. -/
theorem answers_placeOf {m : SourceMap} {line column : Int} {s : Segment}
    (hs : m.Selects line column s) (hnames : ∀ name ∈ m.sources, name.hasLongInteger = false)
    (hcounted : ∀ origin, s.origin = some origin → m.IsCounted origin) :
    m.Answers line column (m.placeOf s) := by
  have hsame {original : Location} (hcovers : m.Covers line column original) :
      ∃ origin name, s.origin = some origin ∧ m.sources[origin.source.toNat]? = some name := by
    obtain ⟨t, origin, name, ht, horigin, -, hname⟩ := hcovers.selects
    obtain rfl := hs.unique ht
    exact ⟨origin, name, horigin, hname⟩
  unfold placeOf
  split
  next hnone =>
    apply answers_none
    intro original hcovers
    obtain ⟨origin, -, horigin, -⟩ := hsame hcovers
    rw [hnone] at horigin
    cases horigin
  next origin horigin =>
    obtain ⟨hsource, hroot⟩ := hcounted origin horigin
    split
    next hbeyond =>
      apply answers_none
      intro original hcovers
      obtain ⟨origin', name, horigin', hname⟩ := hsame hcovers
      obtain rfl := Option.some.inj (horigin.symm.trans horigin')
      obtain ⟨hbound, -⟩ := List.getElem?_eq_some_iff.mp hname
      omega
    next hwithin =>
      have hbound : origin.source.toNat < m.sources.length := by omega
      have hname := List.getElem?_eq_getElem hbound
      rw [sourceName_of_short (hroot (by omega)) (place_of_counted hsource _) hname
        (hnames _ (List.getElem_mem hbound))]
      obtain ⟨hline, segments, hsegments, hfalls⟩ := hs
      exact answers_some (.intro hline hsegments hfalls horigin hsource hname)

theorem answers_of_not_selects {m : SourceMap} {line column : Int}
    (h : ∀ s, ¬ m.Selects line column s) : m.Answers line column (.ok none) := by
  apply answers_none
  intro original hcovers
  obtain ⟨s, -, -, hs, -⟩ := hcovers.selects
  exact h s hs

/-- A map in order answers with the place that covers a position, and with none if none does, if
the origin of the selected segment is counted. -/
theorem answers_of_counted {m : SourceMap} {line column : Int}
    (hsorted : ∀ line ∈ m.lines, line.Pairwise fun a b => a.column ≤ b.column)
    (hnames : ∀ name ∈ m.sources, name.hasLongInteger = false)
    (h : ∀ s origin, m.Selects line column s → s.origin = some origin → m.IsCounted origin) :
    m.Answers line column (m.sourceAt line column) := by
  by_cases hselects : ∃ s, m.Selects line column s
  · obtain ⟨s, hs⟩ := hselects
    rw [sourceAt_of_selects hsorted hs]
    exact answers_placeOf hs hnames fun origin => h s origin hs
  · have hnone : ∀ s, ¬ m.Selects line column s := fun s hs => hselects ⟨s, hs⟩
    rw [sourceAt_of_not_selects hsorted hnone]
    exact answers_of_not_selects hnone

/-- A sound map counts every origin. -/
theorem answers_sourceAt {m : SourceMap} (h : m.IsSound) (line column : Int) :
    m.Answers line column (m.sourceAt line column) := by
  apply answers_of_counted h.sorted h.names
  rintro s origin ⟨-, segments, hsegments, hfalls⟩ horigin
  constructor
  · exact h.sources segments (List.mem_of_getElem? hsegments) s hfalls.mem origin horigin
  · exact fun _ => h.root

/-- Integers lie in their own order, whatever the unit of the number line. -/
theorem before_int (i j : Int) :
    (Binary64.Position.at (i * Binary64.unit)).before (.at (j * Binary64.unit)) =
      decide (i < j) := by
  have hunit : (0 : Int) < Binary64.unit := Int.natCast_pos.mpr Binary64.unit_pos
  simp only [Binary64.Position.before, Int.mul_lt_mul_right hunit]

/-- A line and a column that are integers are looked up as they are. -/
theorem sourceFor_int (m : SourceMap) (line column : Int) :
    m.sourceFor (.int line) (.int column) = m.sourceAt line column := by
  have hreaches : (fun start => !decide (column < start)) = fun start => decide (start ≤ column) := by
    funext start
    rw [← decide_not, decide_eq_decide]
    exact Int.not_lt
  simp only [sourceFor, asPosition, Value.position?, isBefore, Option.map_some, Option.getD_some,
    before_int, hreaches, bind, Except.bind, pure, Except.pure]
  unfold sourceAt lookUp
  by_cases hline : line < 1
  · simp [hline]
  · by_cases hlast : (m.lines.length : Int) < line
    · have hnone : m.lines[(line - 1).toNat]? = none := List.getElem?_eq_none (by omega)
      simp only [hline, hlast, hnone, decide_true, Bool.or_true, if_true, if_false, Option.bind_none]
    · simp only [hline, hlast, decide_false, Bool.or_self, Bool.false_eq_true, if_false]
      cases hsegments : m.lines[(line - 1).toNat]? with
      | none => rfl
      | some segments =>
          cases segments with
          | nil => rfl
          | cons s rest => rfl

end SourceMap

end FunctionPipeline

import FunctionPipeline.Proofs.SourceMap.Positions

/-!
Indices of sources. An index is a running sum of signed differences over all lines, and a lookup
bounds it above only: below 0 it counts from the end of the sources, or leads to none and is a
fault. Main statement, `answers_iff_counted`: a lookup answers with the place that covers a
position, or with none, exactly where the selected segment counts from 0 on and a text stands
before the names.
-/

namespace FunctionPipeline

namespace SourceMap

def rootFault : Value → Fault
  | .bytes _ => .notOctets "str"
  | root => .noAttribute root.typeName "rstrip"

/-- What a lookup gives for an origin that is not counted: a source counted from the end, the fault
of a list without such a place, or that of a root that is no text. -/
inductive Misled (m : SourceMap) (origin : Origin) : Except Fault (Option Location) → Prop
  | fromTheEnd {place : Nat} {name : Value} (hsource : origin.source < 0)
      (hplace : origin.source + m.sources.length = place) (hname : m.sources[place]? = some name)
      (hroot : ∃ root, m.root = .str root) :
      Misled m origin (.ok (some ⟨m.fileOf name, .int (origin.line + 1), .int origin.column⟩))
  | beforeTheFirst (hsource : origin.source + m.sources.length < 0) :
      Misled m origin (.error (.indexOutOfRange "list"))
  | unrooted (hfirst : 0 ≤ origin.source + m.sources.length)
      (hlast : origin.source < m.sources.length) (hroot : ∀ root, m.root ≠ .str root) :
      Misled m origin (.error (rootFault m.root))

theorem sourceName_of_before {m : SourceMap} {index : Int} (h : index + m.sources.length < 0) :
    m.sourceName index = .error (.indexOutOfRange "list") := by
  have hnegative : index < 0 := by omega
  simp only [sourceName, hnegative, h, if_true]

/-- A root that counts and is no text stands before none of the names. -/
theorem sourceName_of_not_text {m : SourceMap} (htrue : m.root.isTrue)
    (hroot : ∀ root, m.root ≠ .str root) {index : Int} {place : Nat}
    (hplace : (if index < 0 then index + m.sources.length else index) = place)
    {name : Value} (hname : m.sources[place]? = some name) :
    m.sourceName index = .error (rootFault m.root) := by
  have hnotNegative : ¬ (place : Int) < 0 := by omega
  simp only [sourceName, hplace, hnotNegative, if_false, Int.toNat_natCast, hname, if_pos htrue]
  cases hvalue : m.root with
  | str root => exact absurd hvalue (hroot root)
  | _ => rfl

/-- A root that was read is a text or counts. -/
theorem isTrue_root {data : Value} {m : SourceMap} (hdata : ofData data = .ok m)
    (hroot : ∀ root, m.root ≠ .str root) : m.root.isTrue := by
  obtain ⟨text, hdescribes, -⟩ := ofData_eq_ok_iff.mp hdata
  obtain ⟨found, -, hfound⟩ := hdescribes.root
  split at hfound
  next htrue => rwa [← hfound]
  next => exact absurd hfound.symm (hroot "")

theorem short_of_names {sources : List Value} {names : List String}
    (h : sources = names.map .str) : ∀ name ∈ sources, name.hasLongInteger = false := by
  intro name hname
  rw [h] at hname
  obtain ⟨text, -, rfl⟩ := List.mem_map.mp hname
  rfl

theorem misled_placeOf {data : Value} {m : SourceMap} {names : List String}
    (hdata : ofData data = .ok m) (hnames : m.sources = names.map .str) {s : Segment}
    {origin : Origin} (horigin : s.origin = some origin) (h : ¬ m.IsCounted origin) :
    m.Misled origin (m.placeOf s) := by
  have hlast : origin.source < m.sources.length := by
    by_contra hbeyond
    exact h ⟨by omega, fun hlt => absurd hlt hbeyond⟩
  rw [placeOf_eq_map horigin hlast]
  -- the index is looked at first, then the root, so a bad index hides a bad root
  by_cases hbefore : origin.source + m.sources.length < 0
  · rw [sourceName_of_before hbefore]
    exact .beforeTheFirst hbefore
  obtain ⟨place, hplace⟩ : ∃ place : Nat,
      (if origin.source < 0 then origin.source + m.sources.length else origin.source) = place := by
    apply Int.eq_ofNat_of_zero_le
    split <;> omega
  have hbound : place < m.sources.length := by
    split at hplace <;> omega
  have hname := List.getElem?_eq_getElem hbound
  by_cases hroot : ∃ root, m.root = .str root
  · have hnegative : origin.source < 0 := by
      by_contra hcounted
      exact h ⟨by omega, fun _ => hroot⟩
    have hshort := short_of_names hnames _ (List.getElem_mem hbound)
    rw [sourceName_of_short hroot hplace hname hshort]
    exact .fromTheEnd hnegative ((if_pos hnegative).symm.trans hplace) hname hroot
  · rw [not_exists] at hroot
    rw [sourceName_of_not_text (isTrue_root hdata hroot) hroot hplace hname]
    exact .unrooted (by omega) hlast hroot

theorem Misled.not_answers {m : SourceMap} {line column : Int} {s : Segment} {origin : Origin}
    {answer : Except Fault (Option Location)} (hs : m.Selects line column s)
    (horigin : s.origin = some origin) (h : m.Misled origin answer) :
    ¬ m.Answers line column answer := by
  rintro ⟨place, hplace, hcovers⟩
  cases h with
  | fromTheEnd hsource =>
      cases hplace
      obtain ⟨t, other, -, ht, hother, hcounted, -⟩ := ((hcovers _).mp rfl).selects
      obtain rfl := hs.unique ht
      obtain rfl := Option.some.inj (horigin.symm.trans hother)
      omega
  | beforeTheFirst => cases hplace
  | unrooted => cases hplace

/-- A lookup in a map that was read from data with the names of sources answers with the place that
covers the position, or with none, exactly where the selected segment counts its source from 0 on
and a text stands before the names. Elsewhere it names a source that the segment does not refer to,
or ends in a fault. -/
theorem answers_iff_counted {data : Value} {m : SourceMap} {names : List String}
    (hdata : ofData data = .ok m) (hnames : m.sources = names.map .str) (line column : Int) :
    (m.Answers line column (m.sourceFor (.int line) (.int column)) ↔
      ∀ s origin, m.Selects line column s → s.origin = some origin → m.IsCounted origin) ∧
    ∀ s origin, m.Selects line column s → s.origin = some origin → ¬ m.IsCounted origin →
      m.Misled origin (m.sourceFor (.int line) (.int column)) := by
  obtain ⟨text, -, hread⟩ := ofData_eq_ok_iff.mp hdata
  have hsorted := Mappings.sorted_of_lines hread
  have hmisled {s : Segment} {origin : Origin} (hs : m.Selects line column s)
      (horigin : s.origin = some origin) (h : ¬ m.IsCounted origin) :
      m.Misled origin (m.sourceAt line column) := by
    rw [sourceAt_of_selects hsorted hs]
    exact misled_placeOf hdata hnames horigin h
  rw [sourceFor_int]
  refine ⟨⟨fun hanswers s origin hs horigin => ?_, fun hcounted => ?_⟩,
    fun s origin hs horigin h => hmisled hs horigin h⟩
  · by_contra h
    exact (hmisled hs horigin h).not_answers hs horigin hanswers
  · exact answers_of_counted hsorted (short_of_names hnames) hcounted

theorem selects_only {m : SourceMap} {line : Int} {s : Segment} (hline : 1 ≤ line)
    (hsegments : m.lines[(line - 1).toNat]? = some [s]) (column : Int) : m.Selects line column s :=
  ⟨hline, [s], hsegments, [], [], rfl, Or.inr rfl, by simp⟩

/-- Three lines, from the second source, from one that is counted from the end, and from none. -/
def mixedLines : List (List Segment) :=
  [[⟨0, some ⟨1, 0, 0⟩⟩], [⟨0, some ⟨-2, 0, 0⟩⟩], [⟨0, some ⟨-3, 0, 0⟩⟩]]

theorem answers_iff_counted_mixed :
    ∃ m, ofData (.object [(.str "sources", .list [.str "a.js", .str "b.js"]),
        (.str "sourceRoot", .str "src/"), (.str "mappings", .str "ACAA;AHAA;ADAA")]) = .ok m ∧
      m.sources = ["a.js", "b.js"].map .str ∧ m.lines = mixedLines ∧
      m.Answers 1 0 (m.sourceFor (.int 1) (.int 0)) ∧
      m.Misled ⟨-2, 0, 0⟩ (m.sourceFor (.int 2) (.int 0)) ∧
      m.Misled ⟨-3, 0, 0⟩ (m.sourceFor (.int 3) (.int 0)) := by
  let m : SourceMap := ⟨["a.js", "b.js"].map .str, .str "src/", mixedLines⟩
  have hdescribes := describes_object ["a.js", "b.js"] "src/" "ACAA;AHAA;ADAA"
  have hread : Mappings.decode "ACAA;AHAA;ADAA".toList = .ok mixedLines := by decide +kernel
  have hmap : ofData _ = .ok m := ofData_eq_ok_iff.mpr ⟨_, hdescribes, hread⟩
  have hfirst : m.Selects 1 0 ⟨0, some ⟨1, 0, 0⟩⟩ := selects_only (by omega) rfl 0
  have hsecond : m.Selects 2 0 ⟨0, some ⟨-2, 0, 0⟩⟩ := selects_only (by omega) rfl 0
  have hthird : m.Selects 3 0 ⟨0, some ⟨-3, 0, 0⟩⟩ := selects_only (by omega) rfl 0
  refine ⟨m, hmap, rfl, rfl, ?_, ?_, ?_⟩
  · apply (answers_iff_counted hmap rfl 1 0).1.mpr
    intro s origin hs horigin
    obtain rfl := hfirst.unique hs
    cases horigin
    exact ⟨by simp, fun _ => ⟨"src/", rfl⟩⟩
  · apply (answers_iff_counted hmap rfl 2 0).2 _ _ hsecond rfl
    rintro ⟨hcounted, -⟩
    simp at hcounted
  · apply (answers_iff_counted hmap rfl 3 0).2 _ _ hthird rfl
    rintro ⟨hcounted, -⟩
    simp at hcounted

/-- Two lines from sources that are counted from the end: from the last one, and from none. -/
def linesFromTheEnd : List (List Segment) := [[⟨0, some ⟨-1, 0, 0⟩⟩], [⟨0, some ⟨-3, 0, 0⟩⟩]]

/-- A lookup can name a source that the segment does not refer to, and it can end in a fault. -/
theorem uncounted_source_named :
    ∃ m, ofData (.object [(.str "sources", .list [.str "a.js", .str "b.js"]),
        (.str "sourceRoot", .str ""), (.str "mappings", .str "ADAA;AFAA")]) = .ok m ∧
      m.sources = ["a.js", "b.js"].map .str ∧ m.lines = linesFromTheEnd ∧
      m.sourceFor (.int 1) (.int 0) = .ok (some ⟨.str "b.js", .int 1, .int 0⟩) ∧
      ¬ m.Answers 1 0 (m.sourceFor (.int 1) (.int 0)) ∧
      m.sourceFor (.int 2) (.int 0) = .error (.indexOutOfRange "list") ∧
      ¬ m.Answers 2 0 (m.sourceFor (.int 2) (.int 0)) := by
  let m : SourceMap := ⟨["a.js", "b.js"].map .str, .str "", linesFromTheEnd⟩
  have hdescribes := describes_object ["a.js", "b.js"] "" "ADAA;AFAA"
  have hread : Mappings.decode "ADAA;AFAA".toList = .ok linesFromTheEnd := by decide +kernel
  have hmap : ofData _ = .ok m := ofData_eq_ok_iff.mpr ⟨_, hdescribes, hread⟩
  have hlast : m.Selects 1 0 ⟨0, some ⟨-1, 0, 0⟩⟩ := selects_only (by omega) rfl 0
  have hnone : m.Selects 2 0 ⟨0, some ⟨-3, 0, 0⟩⟩ := selects_only (by omega) rfl 0
  have hsorted := Mappings.sorted_of_lines hread
  have hnamed : m.sourceFor (.int 1) (.int 0) = .ok (some ⟨.str "b.js", .int 1, .int 0⟩) := by
    rw [sourceFor_int, sourceAt_of_selects hsorted hlast]
    rfl
  have hfault : m.sourceFor (.int 2) (.int 0) = .error (.indexOutOfRange "list") := by
    rw [sourceFor_int, sourceAt_of_selects hsorted hnone]
    rfl
  refine ⟨m, hmap, rfl, rfl, hnamed, ?_, hfault, ?_⟩
  · rw [hnamed]
    apply Misled.not_answers hlast rfl
    exact .fromTheEnd (by simp) rfl rfl ⟨"", rfl⟩
  · rw [hfault]
    apply Misled.not_answers hnone rfl
    exact .beforeTheFirst (by simp [m])

end SourceMap

end FunctionPipeline

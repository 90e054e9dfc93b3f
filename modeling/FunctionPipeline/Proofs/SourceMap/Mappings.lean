import FunctionPipeline.Proofs.SourceMap.Vlq
import FunctionPipeline.SourceMap.Mappings
import Mathlib.Data.List.Forall2

/-!
Mappings as they are written. Each field of a segment is written as its difference to the same
field of the last segment that has it; only the column starts again on every line. Reading such a
text gives the absolute segments of each line, in a stable order by their columns. Whatever the
text, reading it fails only where a segment is no sequence of numbers.
-/

namespace FunctionPipeline

/-- A text put together with a separator between is cut into its pieces again. -/
theorem pieces_intercalate {separator : Char} {texts : List (List Char)} (hne : texts ≠ [])
    (h : ∀ text ∈ texts, separator ∉ text) :
    pieces separator ([separator].intercalate texts) = texts := by
  have hpiece (text rest : List Char) (htext : separator ∉ text) :
      ∀ first others, pieces separator rest = first :: others →
        pieces separator (text ++ rest) = (text ++ first) :: others := by
    intro first others hrest
    induction text with
    | nil => exact hrest
    | cons c text ih =>
        rw [List.mem_cons, not_or] at htext
        rw [List.cons_append, pieces, if_neg (Ne.symm htext.1), ih htext.2]
        rfl
  induction texts with
  | nil => exact absurd rfl hne
  | cons text rest ih =>
      obtain ⟨htext, hrest⟩ := List.forall_mem_cons.mp h
      cases rest with
      | nil =>
          have hend := hpiece text [] htext [] [] rfl
          simpa using hend
      | cons next more =>
          have hnext : pieces separator (separator :: [separator].intercalate (next :: more)) =
              [] :: next :: more := by
            rw [pieces, if_pos rfl, ih (by simp) hrest]
          have hcut := hpiece text _ htext _ _ hnext
          simpa [List.intercalate_cons_cons] using hcut

theorem mem_intercalate {separator c : Char} {texts : List (List Char)}
    (h : c ∈ [separator].intercalate texts) : c = separator ∨ ∃ text ∈ texts, c ∈ text := by
  induction texts with
  | nil => simp at h
  | cons text rest ih =>
      cases rest with
      | nil => exact Or.inr ⟨text, by simp, by simpa using h⟩
      | cons next more =>
          rw [List.intercalate_cons_cons, List.mem_append, List.mem_append,
            List.mem_singleton] at h
          rcases h with (htext | hseparator) | hrest
          · exact Or.inr ⟨text, by simp, htext⟩
          · exact Or.inl hseparator
          · rcases ih hrest with hseparator | ⟨other, hother, hc⟩
            · exact Or.inl hseparator
            · exact Or.inr ⟨other, List.mem_cons_of_mem _ hother, hc⟩

namespace Segment

/-- The segment that absolute fields describe; fields after the first four are left out. -/
def ofFields : List Int → Segment
  | column :: source :: line :: place :: _ => ⟨column, some ⟨source, line, place⟩⟩
  | column :: _ => ⟨column, none⟩
  | [] => ⟨0, none⟩

end Segment

namespace Mappings

/-- The fields that a segment's fields are written against: of each position the last one there
was. -/
abbrev Fields := Nat → Int

def differences (before : Fields) (fields : List Int) : List Int :=
  fields.mapIdx fun i field => field - before i

/-- The last fields after a segment: those that it has, and the others from before. -/
def advanced (before : Fields) (fields : List Int) : Fields := fun i => fields.getD i (before i)

/-- The last fields at the start of a line, where columns count from 0 again. -/
def restarted (before : Fields) : Fields := fun i => if i = 0 then 0 else before i

def segmentTexts (before : Fields) : List (List Int) → List (List Char)
  | [] => []
  | fields :: rest =>
      Vlq.encode (differences before fields) :: segmentTexts (advanced before fields) rest

def lineTexts (before : Fields) : List (List (List Int)) → List (List Char)
  | [] => []
  | line :: rest =>
      [','].intercalate (segmentTexts (restarted before) line) ::
        lineTexts (line.foldl advanced (restarted before)) rest

/-- The text of a table of generated lines, whose segments have absolute fields. -/
def encode (table : List (List (List Int))) : List Char :=
  [';'].intercalate (lineTexts (fun _ => 0) table)

/-- Segments in the order of their columns, those of one column in the order in which they were
given. -/
structure IsStablySorted (given sorted : List Segment) : Prop where
  ordered : sorted.Pairwise fun a b => a.column ≤ b.column
  stable (column : Int) :
    sorted.filter (fun s => s.column = column) = given.filter fun s => s.column = column

theorem isStablySorted_inOrder (line : List Segment) : IsStablySorted line (inOrder line) := by
  have htrans : ∀ a b c : Segment, decide (a.column ≤ b.column) = true →
      decide (b.column ≤ c.column) = true → decide (a.column ≤ c.column) = true := by
    simp only [decide_eq_true_eq]
    intro a b c
    exact Int.le_trans
  have htotal : ∀ a b : Segment,
      (decide (a.column ≤ b.column) || decide (b.column ≤ a.column)) = true := by
    simp only [Bool.or_eq_true, decide_eq_true_eq]
    exact fun a b => Int.le_total a.column b.column
  refine ⟨?_, fun column => ?_⟩
  · simpa [inOrder] using List.pairwise_mergeSort htrans htotal line
  · -- the segments of one column are in order as they stand, so sorting keeps them so
    let here := line.filter fun s => s.column = column
    have hcolumn : ∀ s ∈ here, s.column = column := fun s hs => by
      simpa using (List.mem_filter.mp hs).2
    have hinOrder : here.Pairwise fun a b => decide (a.column ≤ b.column) = true := by
      refine List.pairwise_of_forall_mem_list fun a ha b hb => ?_
      rw [hcolumn a ha, hcolumn b hb]
      simp
    have hkept : here.Sublist (inOrder line) :=
      List.sublist_mergeSort htrans htotal hinOrder List.filter_sublist
    have hthere : here.Sublist ((inOrder line).filter fun s => s.column = column) := by
      have hfiltered := hkept.filter fun s : Segment => decide (s.column = column)
      rwa [List.filter_eq_self.mpr fun s hs => by simpa using hcolumn s hs] at hfiltered
    have hperm : (inOrder line).Perm line := List.mergeSort_perm line _
    have hcount := (hperm.filter fun s => decide (s.column = column)).length_eq
    exact (hthere.eq_of_length hcount.symm).symm

def originIn (before : Fields) : Origin := ⟨before 1, before 2, before 3⟩

/-- Fields that a segment can have: a column, with or without a place and more after it. -/
def AreFields (fields : List Int) : Prop := fields.length = 1 ∨ 4 ≤ fields.length

/-- A segment is read from its differences, and the fields after it are its own. -/
theorem segments_cons {before : Fields} {fields : List Int} (h : AreFields fields)
    (rest : List (List Char)) :
    segments (before 0) (originIn before) (Vlq.encode (differences before fields) :: rest) =
      (segments (advanced before fields 0) (originIn (advanced before fields)) rest).map
        fun (others, last) => (Segment.ofFields fields :: others, last) := by
  have hwritten : (Vlq.encode (differences before fields)).isEmpty = false := by
    have hsome : differences before fields ≠ [] := by
      intro hnil
      rw [differences, List.mapIdx_eq_nil_iff] at hnil
      rw [hnil] at h
      rcases h with hone | hfour
      · cases hone
      · cases hfour
    simpa using Vlq.encode_ne_nil hsome
  rw [segments, hwritten, Vlq.decode_encode]
  rcases h with hone | hfour
  · obtain ⟨column, rfl⟩ := List.length_eq_one_iff.mp hone
    have hcolumn : before 0 + (column - before 0) = column := by omega
    simp only [differences, List.mapIdx_cons, List.mapIdx_nil, Bool.false_eq_true, if_false,
      Except.mapError, bind, Except.bind, hcolumn]
    change _ = (segments column (originIn before) rest).map _
    cases segments column (originIn before) rest <;> rfl
  · obtain ⟨column, source, line, place, more, rfl⟩ : ∃ column source line place more,
        fields = column :: source :: line :: place :: more := by
      match fields, hfour with
      | column :: source :: line :: place :: more, _ =>
          exact ⟨column, source, line, place, more, rfl⟩
    have hcolumn : before 0 + (column - before 0) = column := by omega
    have hplace : shift (originIn before)
        ⟨source - before 1, line - before 2, place - before 3⟩ = ⟨source, line, place⟩ := by
      simp only [shift, originIn, Origin.mk.injEq]
      omega
    simp only [differences, List.mapIdx_cons, Bool.false_eq_true, if_false, Except.mapError, bind,
      Except.bind, hcolumn, Nat.zero_add, Nat.reduceAdd, hplace]
    change _ = (segments column ⟨source, line, place⟩ rest).map _
    cases segments column ⟨source, line, place⟩ rest <;> rfl

/-- A line is read from its texts, and the last fields after it are its own. -/
theorem segments_segmentTexts (before : Fields) {line : List (List Int)}
    (h : ∀ fields ∈ line, AreFields fields) :
    segments (before 0) (originIn before) (segmentTexts before line) =
      .ok (line.map Segment.ofFields, originIn (line.foldl advanced before)) := by
  induction line generalizing before with
  | nil => rfl
  | cons fields rest ih =>
      obtain ⟨hfields, hrest⟩ := List.forall_mem_cons.mp h
      rw [segmentTexts, segments_cons hfields, ih (advanced before fields) hrest]
      rfl

theorem not_separator_of_mem_segmentTexts {before : Fields} {line : List (List Int)}
    {text : List Char} (h : text ∈ segmentTexts before line) : ',' ∉ text ∧ ';' ∉ text := by
  induction line generalizing before with
  | nil => cases h
  | cons fields rest ih =>
      rcases List.mem_cons.mp h with rfl | hrest
      · exact ⟨fun hmem => (Vlq.not_separator_of_mem_encode hmem).1 rfl,
          fun hmem => (Vlq.not_separator_of_mem_encode hmem).2 rfl⟩
      · exact ih hrest

theorem segments_pieces (before : Fields) {line : List (List Int)}
    (h : ∀ fields ∈ line, AreFields fields) :
    segments (before 0) (originIn before)
        (pieces ',' ([','].intercalate (segmentTexts before line))) =
      .ok (line.map Segment.ofFields, originIn (line.foldl advanced before)) := by
  cases line with
  | nil => rfl
  | cons fields rest =>
      rw [pieces_intercalate (by simp [segmentTexts])
        fun text htext => (not_separator_of_mem_segmentTexts htext).1]
      exact segments_segmentTexts before h

/-- Lines are read from their texts one after the other. -/
theorem lines_lineTexts (before : Fields) {table : List (List (List Int))}
    (h : ∀ line ∈ table, ∀ fields ∈ line, AreFields fields) :
    lines (originIn before) (lineTexts before table) =
      .ok (table.map fun line => inOrder (line.map Segment.ofFields)) := by
  induction table generalizing before with
  | nil => rfl
  | cons line rest ih =>
      obtain ⟨hline, hrest⟩ := List.forall_mem_cons.mp h
      have hsegments : segments 0 (originIn before)
          (pieces ',' ([','].intercalate (segmentTexts (restarted before) line))) =
            .ok (line.map Segment.ofFields, originIn (line.foldl advanced (restarted before))) :=
        segments_pieces (restarted before) hline
      rw [lineTexts, lines, hsegments]
      simp only [bind, Except.bind, ih _ hrest]
      rfl

theorem not_separator_of_mem_lineTexts {before : Fields} {table : List (List (List Int))}
    {text : List Char} (h : text ∈ lineTexts before table) : ';' ∉ text := by
  induction table generalizing before with
  | nil => cases h
  | cons line rest ih =>
      rcases List.mem_cons.mp h with rfl | hrest
      · intro hmem
        rcases mem_intercalate hmem with hseparator | ⟨part, hpart, hc⟩
        · cases hseparator
        · exact (not_separator_of_mem_segmentTexts hpart).2 hc
      · exact ih hrest

/-- No text makes reading look for a column where there is none: a piece that is not empty has a
number in it. -/
theorem segments_ne_noColumn (column : Int) (last : Origin) (texts : List (List Char)) :
    segments column last texts ≠ .error .noColumn := by
  induction texts generalizing column last with
  | nil => simp [segments]
  | cons text rest ih =>
      intro h
      rw [segments] at h
      split at h
      next => exact ih _ _ h
      next hne =>
        cases hread : Vlq.decode text with
        | error cause => rw [hread] at h; cases h
        | ok numbers =>
            simp only [hread, Except.mapError, bind, Except.bind] at h
            split at h
            next => exact Vlq.ne_nil_of_decode (by simpa using hne) hread rfl
            next =>
              split at h
              next cause hrest => exact ih _ _ (hrest.trans h)
              next => cases h
            next =>
              split at h
              next cause hrest => exact ih _ _ (hrest.trans h)
              next => cases h

theorem lines_ne_noColumn (last : Origin) (texts : List (List Char)) :
    lines last texts ≠ .error .noColumn := by
  induction texts generalizing last with
  | nil => simp [lines]
  | cons text rest ih =>
      intro h
      rw [lines] at h
      simp only [bind, Except.bind] at h
      split at h
      next cause hline =>
        cases h
        exact segments_ne_noColumn _ _ _ hline
      next =>
        split at h
        next cause hrest => exact ih _ (hrest.trans h)
        next => cases h

/-- Mappings are read as they were written: from the text of a table of generated lines come, line
by line, the absolute segments of the table in the stable order of their columns. And whatever the
text, reading it gives lines, or fails at a segment that is no sequence of numbers; it never looks
for a column that is not there. -/
theorem mappings_read_as_written {table : List (List (List Int))} (hne : table ≠ [])
    (h : ∀ line ∈ table, ∀ fields ∈ line, fields.length = 1 ∨ 4 ≤ fields.length) :
    (∃ found, decode (encode table) = .ok found ∧
      List.Forall₂ (fun line segments => IsStablySorted (line.map Segment.ofFields) segments)
        table found) ∧
    ∀ text, (∃ found, decode text = .ok found) ∨
      ∃ cause, decode text = .error (.segment cause) := by
  constructor
  · refine ⟨table.map fun line => inOrder (line.map Segment.ofFields), ?_, ?_⟩
    · have htexts : lineTexts (fun _ => 0) table ≠ [] := by
        cases table with
        | nil => exact absurd rfl hne
        | cons line rest => simp [lineTexts]
      rw [encode, decode, pieces_intercalate htexts fun text => not_separator_of_mem_lineTexts]
      exact lines_lineTexts (fun _ => 0) h
    · rw [List.forall₂_map_right_iff, List.forall₂_same]
      exact fun line _ => isStablySorted_inOrder _
  · intro text
    cases hread : decode text with
    | ok found => exact Or.inl ⟨found, rfl⟩
    | error cause =>
        cases cause with
        | segment cause => exact Or.inr ⟨cause, rfl⟩
        | noColumn => exact absurd hread (lines_ne_noColumn _ _)

/-- A table whose first line is not in order, with a negative difference on the last line and a
name's index in one segment. -/
def turnedTable : List (List (List Int)) :=
  [[[7, 1, 40, 2, 0], [3], [7]], [], [[2, 0, 39, -17]]]

theorem mappings_read_as_written_turned :
    turnedTable ≠ [] ∧
    (∀ line ∈ turnedTable, ∀ fields ∈ line, fields.length = 1 ∨ 4 ≤ fields.length) ∧
    ∃ found, decode (encode turnedTable) = .ok found ∧
      List.Forall₂ (fun line segments => IsStablySorted (line.map Segment.ofFields) segments)
        turnedTable found := by
  have hne : turnedTable ≠ [] := by simp [turnedTable]
  have hfields : ∀ line ∈ turnedTable, ∀ fields ∈ line, fields.length = 1 ∨ 4 ≤ fields.length := by
    simp [turnedTable]
  exact ⟨hne, hfields, (mappings_read_as_written hne hfields).1⟩

end Mappings

end FunctionPipeline

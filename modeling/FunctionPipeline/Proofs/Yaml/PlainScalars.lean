import FunctionPipeline.Yaml.ScalarReader
import FunctionPipeline.Proofs.Yaml.Cursors

/-!
Plain scalars are read back. The reader takes runs of characters and the gaps between them, so a
text is followed word by word. What makes a text safe to be written plainly is stated for all its
splits, so that it passes to what is left after a word.
-/

namespace FunctionPipeline.Yaml

namespace Plain

/-- A printable text without blanks at its ends, in which nothing can end a plain scalar: after no
colon comes a separation or the end, and before no number sign a space. -/
structure IsUnbroken (s : List Char) : Prop where
  head : ∀ c, s.head? = some c → c ≠ ' ' ∧ c ≠ '#'
  last : s.getLast? ≠ some ' '
  nonempty : s ≠ []
  printable : ∀ c ∈ s, isPrintable c = true
  colon : ∀ a b, s = a ++ ':' :: b → separates b.head? = false
  hash : ∀ a b, s ≠ a ++ ' ' :: '#' :: b

/-- A part of an unbroken text between its spaces. -/
structure IsWord (w : List Char) : Prop where
  nonempty : w ≠ []
  head : w.head? ≠ some '#'
  unseparated : ∀ c ∈ w, isSeparating c = false
  colon : ∀ a b, w = a ++ ':' :: b → separates b.head? = false

theorem IsWord.ne_space {w : List Char} (h : IsWord w) {c : Char} (hc : c ∈ w) : c ≠ ' ' := by
  rintro rfl
  exact absurd (h.unseparated ' ' hc) (by decide)

def StopsRun (t : List Char) : Prop := runLength false t = 0

private theorem runLength_unseparated {w t : List Char} (hw : ∀ c ∈ w, isSeparating c = false)
    (hcolon : ∀ a b, w = a ++ ':' :: b → separates b.head? = false) (ht : StopsRun t) :
    runLength false (w ++ t) = w.length := by
  induction w with
  | nil => exact ht
  | cons c rest ih =>
      have hrest := ih (fun d hd => hw d (by simp [hd]))
        (fun a b h => hcolon (c :: a) b (by rw [h]; rfl))
      have hseparating := hw c (by simp)
      have hnotColon : c = ':' → separates (rest.head?.or t.head?) = false := by
        intro h
        have hnext := hcolon [] rest (by rw [h]; rfl)
        cases rest with
        | nil => cases hnext
        | cons d others => exact hnext
      simpa [runLength, hseparating, hrest] using hnotColon

theorem runLength_word {w t : List Char} (hw : IsWord w) (ht : StopsRun t) :
    runLength false (w ++ t) = w.length := runLength_unseparated hw.unseparated hw.colon ht

theorem gap_spaces {c : Cursor} {spaces t : List Char} {ch : Char}
    (h : c.rest = spaces ++ ch :: t) (hspaces : ∀ d ∈ spaces, d = ' ')
    (hch : isPrintable ch = true) (hne : ch ≠ ' ') :
    gap c = ⟨spaces, false, c.forward spaces.length⟩ := by
  have htaken := Cursor.takeWhile_append (p := fun d => d = ' ') h
    (fun d hd => by simp [hspaces d hd]) (fun d hd => by cases hd; simp [hne])
  have hend : (c.forward spaces.length).lineEnd? = none :=
    Cursor.lineEnd?_of_not fun d hd => by
      rw [Cursor.rest_forward_append h] at hd
      cases hd
      exact isLineEnd_of_isPrintable hch
  simp [gap, htaken, hend]

/-- A gap where the line was folded. -/
theorem gap_fold {c : Cursor} {t : List Char} {ch : Char} {indent : Nat}
    (h : c.rest = newLine indent ++ ch :: t) (hindent : 0 < indent)
    (hch : isPrintable ch = true) (hne : ch ≠ ' ') :
    gap c = ⟨[' '], true, c.forward (indent + 1)⟩ := by
  have hline : c.rest = '\n' :: (List.replicate indent ' ' ++ ch :: t) := h
  have htaken : c.takeWhile (fun d => d = ' ') = ([], c) :=
    Cursor.takeWhile_none fun d hd => by
      rw [hline] at hd
      cases hd
      rfl
  have hnext : c.next.rest = List.replicate indent ' ' ++ ch :: t := by
    rw [Cursor.rest_next, hline, List.tail_cons]
  have hmarker : c.next.atMarker = false := by
    obtain ⟨n, rfl⟩ : ∃ n, indent = n + 1 := ⟨indent - 1, by omega⟩
    exact Cursor.atMarker_of_not hnext (Or.inl (by decide))
  have hskipped : c.next.skipSpaces = c.forward (indent + 1) := by
    have htaken := Cursor.takeWhile_append (p := fun d => d = ' ') hnext
      (fun d hd => by simp [List.eq_of_mem_replicate hd]) (fun d hd => by cases hd; simp [hne])
    simp [Cursor.skipSpaces, Cursor.skipWhile, htaken, Cursor.forward]
  have hend : (c.forward (indent + 1)).lineEnd? = none :=
    Cursor.lineEnd?_of_not fun d hd => by
      have hrest := Cursor.rest_forward_append hnext
      rw [List.length_replicate] at hrest
      have hhead : (ch :: t).head? = some d := hrest ▸ hd
      cases hhead
      exact isLineEnd_of_isPrintable hch
  obtain ⟨fuel, hfuel⟩ : ∃ f, c.next.rest.length = f + 1 :=
    ⟨c.next.rest.length - 1, by rw [hnext]; simp only [List.length_append, List.length_cons]; omega⟩
  simp [gap, htaken, Cursor.lineEnd?_newline hline, hmarker, hfuel, gapBreaks?, hskipped, hend,
    foldedBreaks]

private theorem exists_word (s : List Char) :
    ∃ w rest, s = w ++ rest ∧ (∀ c ∈ w, c ≠ ' ') ∧ (rest = [] ∨ rest.head? = some ' ') := by
  induction s with
  | nil => exact ⟨[], [], rfl, by simp, Or.inl rfl⟩
  | cons c s ih =>
      by_cases hc : c = ' '
      · exact ⟨[], c :: s, rfl, by simp, Or.inr (by rw [hc]; rfl)⟩
      · obtain ⟨w, rest, rfl, hw, hrest⟩ := ih
        exact ⟨c :: w, rest, rfl, by simpa [hc] using hw, hrest⟩

private theorem exists_spaces (s : List Char) :
    ∃ m s', s = List.replicate m ' ' ++ s' ∧ s'.head? ≠ some ' ' := by
  induction s with
  | nil => exact ⟨0, [], rfl, by simp⟩
  | cons c s ih =>
      by_cases hc : c = ' '
      · obtain ⟨m, s', rfl, hs'⟩ := ih
        exact ⟨m + 1, s', by rw [hc]; rfl, hs'⟩
      · exact ⟨0, c :: s, rfl, by simpa using hc⟩

/-- What follows a space in an unbroken text, without the spaces in front, is unbroken. -/
private theorem isUnbroken_after {w s : List Char} {m : Nat}
    (h : IsUnbroken (w ++ List.replicate (m + 1) ' ' ++ s)) (hs : s.head? ≠ some ' ') :
    IsUnbroken s where
  head c hc := by
    refine ⟨fun heq => hs (by rw [hc, heq]), fun heq => ?_⟩
    obtain ⟨b, rfl⟩ : ∃ b, s = '#' :: b := by
      cases s with
      | nil => cases hc
      | cons d b => cases hc; exact ⟨b, by rw [heq]⟩
    exact h.hash (w ++ List.replicate m ' ') b (by simp [List.replicate_succ'])
  last hlast := by
    apply h.last
    rw [List.getLast?_append, hlast]
    rfl
  nonempty heq := by
    apply h.last
    rw [heq, List.append_nil, List.replicate_succ', ← List.append_assoc, List.getLast?_concat]
  printable c hc := h.printable c (by simp [hc])
  colon a b heq := h.colon (w ++ List.replicate (m + 1) ' ' ++ a) b (by rw [heq]; simp)
  hash a b heq := h.hash (w ++ List.replicate (m + 1) ' ' ++ a) b (by rw [heq]; simp)

private theorem isWord_front {w rest : List Char} (h : IsUnbroken (w ++ rest))
    (hw : ∀ c ∈ w, c ≠ ' ') (hrest : rest = [] ∨ rest.head? = some ' ') : IsWord w where
  nonempty := by
    rintro rfl
    rcases hrest with rfl | hspace
    · exact h.nonempty rfl
    · exact (h.head ' ' hspace).1 rfl
  head hhead := by
    cases w with
    | nil => cases hhead
    | cons d w => exact (h.head '#' hhead).2 rfl
  unseparated c hc := isSeparating_of_isPrintable (h.printable c (by simp [hc])) (hw c hc)
  colon a b heq := by
    have hafter := h.colon a (b ++ rest) (by rw [heq]; simp)
    cases b with
    | cons d b => exact hafter
    | nil =>
        rcases hrest with rfl | hspace
        · cases hafter
        · rw [List.nil_append, hspace] at hafter
          cases hafter

/-- An unbroken text is a word, or a word with spaces and another one after it. -/
theorem IsUnbroken.words {s : List Char} (h : IsUnbroken s) :
    ∃ w rest, s = w ++ rest ∧ IsWord w ∧
      (rest = [] ∨ ∃ m s', rest = List.replicate (m + 1) ' ' ++ s' ∧ IsUnbroken s') := by
  obtain ⟨w, rest, rfl, hw, hrest⟩ := exists_word s
  refine ⟨w, rest, rfl, isWord_front h hw hrest, ?_⟩
  rcases hrest with rfl | hspace
  · exact Or.inl rfl
  · obtain ⟨m, s', rfl, hs'⟩ := exists_spaces rest
    cases m with
    | zero => exact absurd hspace hs'
    | succ m =>
        rw [← List.append_assoc] at h
        exact Or.inr ⟨m, s', rfl, isUnbroken_after h hs'⟩

section Written

variable {fold : Bool} {indent : Nat}

private theorem writeFrom_word (fold : Bool) (indent : Nat) {w : List Char} (rest : List Char)
    (hw : ∀ c ∈ w, c ≠ ' ') (column : Nat) (before : Option Char) :
    ∃ column' before', writeFrom fold indent column before (w ++ rest) =
      w ++ writeFrom fold indent column' before' rest := by
  induction w generalizing column before with
  | nil => exact ⟨column, before, rfl⟩
  | cons c w ih =>
      obtain ⟨column', before', heq⟩ := ih (fun d hd => hw d (by simp [hd])) (column + 1) (some c)
      exact ⟨column', before', by simp [writeFrom, hw c (by simp), heq]⟩

private theorem writeFrom_spaces (fold : Bool) (indent m : Nat) (s : List Char) (column : Nat) :
    ∃ column', writeFrom fold indent column (some ' ') (List.replicate m ' ' ++ s) =
      List.replicate m ' ' ++ writeFrom fold indent column' (some ' ') s := by
  induction m generalizing column with
  | zero => exact ⟨column, rfl⟩
  | succ m ih =>
      obtain ⟨column', heq⟩ := ih (column + 1)
      exact ⟨column', by simp [writeFrom, List.replicate_succ, foldsAt, heq]⟩

private theorem writeFrom_head (fold : Bool) (indent : Nat) {d : Char} (s : List Char)
    (column : Nat) (before : Option Char) (hd : d ≠ ' ') :
    ∃ w, writeFrom fold indent column before (d :: s) = d :: w :=
  ⟨_, by simp [writeFrom, hd]; rfl⟩

/-- Spaces are written as they are, or a single one as a folded line. -/
private theorem writeFrom_gap (fold : Bool) (indent m : Nat) (s : List Char) (column : Nat)
    (before : Option Char) :
    ∃ gap column', writeFrom fold indent column before (List.replicate (m + 1) ' ' ++ s) =
        gap ++ writeFrom fold indent column' (some ' ') s ∧
      (gap = List.replicate (m + 1) ' ' ∨ m = 0 ∧ gap = newLine indent) := by
  by_cases hfold : (fold && foldsAt column before (List.replicate m ' ' ++ s).head?) = true
  · have hzero : m = 0 := by
      cases m with
      | zero => rfl
      | succ m => simp [foldsAt, List.replicate_succ] at hfold
    subst hzero
    refine ⟨newLine indent, indent, ?_, Or.inr ⟨rfl, rfl⟩⟩
    change writeFrom fold indent column before (' ' :: s) = _
    rw [writeFrom, if_pos (by simpa using hfold)]
  · obtain ⟨column', heq⟩ := writeFrom_spaces fold indent m s (column + 1)
    refine ⟨List.replicate (m + 1) ' ', column', ?_, Or.inl rfl⟩
    rw [List.replicate_succ, List.cons_append, writeFrom, if_neg (by simpa using hfold), heq]
    rfl

/-- The reader takes a word, and goes on after the gap unless the scalar ends there. -/
private theorem readFrom_word {w t lead : List Char} {block : Int} {fuel : Nat} {ended : Bool}
    {c : Cursor} (h : c.rest = w ++ t) (hw : IsWord w) (ht : StopsRun t) :
    readFrom false block (fuel + 1) lead ended c =
      let g := gap (c.forward w.length)
      if g.text.isEmpty || g.cursor.peek = some '#' || (g.cursor.column : Int) < block then
        (lead ++ w, g.ended, g.cursor)
      else
        let others := readFrom false block fuel g.text g.ended g.cursor
        (lead ++ w ++ others.1, others.2.1, others.2.2) := by
  have hpeek : c.peek ≠ some '#' := by
    have hhead := hw.head
    cases w with
    | nil => exact absurd rfl hw.nonempty
    | cons d w => simpa [Cursor.peek, h] using hhead
  have hlength : w.length ≠ 0 := fun hzero => hw.nonempty (List.eq_nil_of_length_eq_zero hzero)
  simp only [readFrom, if_neg hpeek, h, runLength_word hw ht, if_neg hlength, List.take_left,
    Bool.not_false, Bool.true_and]

/-- What is written for spaces ends a word, and the reader takes it for those spaces and stays
inside the block. -/
private theorem gap_written {m : Nat} {between rest : List Char} {d : Char} {block : Int}
    {c : Cursor}
    (hkind : between = List.replicate (m + 1) ' ' ∨ m = 0 ∧ between = newLine indent)
    (hindent : 0 < indent) (hblock : block ≤ indent) (hcolumn : block ≤ c.column)
    (h : c.rest = between ++ d :: rest) (hd : isPrintable d = true) (hspace : d ≠ ' ') :
    StopsRun (between ++ d :: rest) ∧ block ≤ (c.forward between.length).column ∧
      ∃ ended, gap c = ⟨List.replicate (m + 1) ' ', ended, c.forward between.length⟩ := by
  rcases hkind with rfl | ⟨rfl, rfl⟩
  · refine ⟨by simp [StopsRun, List.replicate_succ, runLength, isSeparating], ?_, false,
      gap_spaces h (fun e he => List.eq_of_mem_replicate he) hd hspace⟩
    have hspaces := Cursor.forward_printable h fun e he => by
      rw [List.eq_of_mem_replicate he]
      decide
    rw [hspaces]
    simp only [List.length_replicate]
    omega
  · have hlength : (newLine indent).length = indent + 1 := by simp [newLine]
    refine ⟨by simp [StopsRun, newLine, runLength, isSeparating, isLineEnd, isBreak], ?_, true, ?_⟩
    · have hline := Cursor.forward_newLine h
      rw [hlength, hline]
      exact hblock
    · rw [hlength]
      exact gap_fold h hindent hd hspace

/-- What is written plainly is read up to its end, and the gap after it is passed too. The lines of
the scalar are indented further than its block, and what follows is either less so or no part of a
plain scalar. -/
theorem readFrom_writeFrom {s t : List Char} {block : Int} {column fuel : Nat}
    {before : Option Char} {lead : List Char} {ended : Bool} {c : Cursor} (hs : IsUnbroken s)
    (hindent : 0 < indent) (hblock : block ≤ indent) (ht : StopsRun t)
    (hstop : ∀ d : Cursor, d.rest = t →
      (gap d).text.isEmpty = true ∨ ((gap d).cursor.column : Int) < block)
    (hcolumn : block ≤ c.column + 1) (hfuel : c.rest.length < fuel)
    (h : c.rest = writeFrom fold indent column before s ++ t) :
    readFrom false block fuel lead ended c =
      let last := gap (c.forward (writeFrom fold indent column before s).length)
      (lead ++ s, last.ended, last.cursor) := by
  -- on the length: what is left after a word and the spaces after it is shorter
  induction hlength : s.length using Nat.strongRecOn
    generalizing s column before lead ended c fuel with
  | ind length ih =>
    obtain ⟨fuel, rfl⟩ : ∃ f, fuel = f + 1 := ⟨fuel - 1, by omega⟩
    obtain ⟨w, rest, rfl, hw, hrest⟩ := hs.words
    obtain ⟨column', before', hwrite⟩ :=
      writeFrom_word fold indent rest (fun _ => hw.ne_space) column before
    have hpositive := List.length_pos_iff.mpr hw.nonempty
    rw [hwrite, List.append_assoc] at h
    rcases hrest with rfl | ⟨m, s', rfl, hs'⟩
    · simp only [writeFrom, List.nil_append] at h
      rw [readFrom_word h hw ht, hwrite]
      simp only [writeFrom, List.append_nil]
      rw [if_pos]
      rcases hstop _ (Cursor.rest_forward_append h) with hempty | hless
      · simp [hempty]
      · simp [hless]
    · obtain ⟨between, column'', hgap, hkind⟩ := writeFrom_gap fold indent m s' column' before'
      obtain ⟨d, others, rfl⟩ := List.exists_cons_of_ne_nil hs'.nonempty
      obtain ⟨hspace, hsign⟩ := hs'.head d rfl
      obtain ⟨written, hwritten⟩ := writeFrom_head fold indent others column'' (some ' ') hspace
      rw [hgap, List.append_assoc, hwritten] at h
      have hafter := Cursor.forward_printable h fun e he => hs.printable e (by simp [he])
      have hplace := Cursor.rest_forward_append h
      obtain ⟨hseparated, hmoved, e, hread⟩ := gap_written hkind hindent hblock
        (by rw [hafter]; simp only; omega) hplace (hs'.printable d (by simp)) hspace
      have hnext := Cursor.rest_forward_append hplace
      rw [readFrom_word h hw hseparated]
      have hgoes : ¬ ((List.replicate (m + 1) ' ').isEmpty ||
          ((c.forward w.length).forward between.length).peek = some '#' ||
          (((c.forward w.length).forward between.length).column : Int) < block) = true := by
        have hpeek : ((c.forward w.length).forward between.length).peek = some d := by
          rw [Cursor.peek, hnext]
          rfl
        have hempty : (List.replicate (m + 1) ' ').isEmpty = false := rfl
        simp only [hempty, hpeek, Option.some.injEq, hsign, decide_false, Bool.or_self,
          Bool.false_or, decide_eq_true_eq]
        omega
      have hless : ((c.forward w.length).forward between.length).rest.length < fuel := by
        rw [Cursor.rest_forward, Cursor.rest_forward, List.length_drop, List.length_drop]
        have htotal : w.length ≤ c.rest.length := by simp [h]
        omega
      have hshorter : (d :: others).length < length := by
        rw [← hlength]
        simp only [List.length_cons, List.length_append, List.length_replicate]
        omega
      have hothers (lead : List Char) (ended : Bool) :=
        @ih _ hshorter (d :: others) column'' fuel (some ' ') lead ended _ hs' (by omega) hless
          (by rw [hwritten]; exact hnext) rfl
      simp only [hread, if_neg hgoes, hothers]
      rw [hwrite, hgap, ← Cursor.forward_add, ← Cursor.forward_add]
      simp

/-- A plain scalar is read back, with the gap after it. -/
theorem read_write {s t : List Char} {block : Int} {column : Nat} {c : Cursor} (hs : IsUnbroken s)
    (hindent : 0 < indent) (hblock : block ≤ indent) (ht : StopsRun t)
    (hstop : ∀ d : Cursor, d.rest = t →
      (gap d).text.isEmpty = true ∨ ((gap d).cursor.column : Int) < block)
    (hcolumn : block ≤ c.column + 1) (h : c.rest = write fold indent column s ++ t) :
    read false block c =
      let last := gap (c.forward (write fold indent column s).length)
      (s, last.ended, last.cursor) :=
  readFrom_writeFrom hs hindent hblock ht hstop hcolumn (Nat.lt_succ_self _) h

end Written

end Plain

end FunctionPipeline.Yaml

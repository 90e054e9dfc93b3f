import FunctionPipeline.Proofs.Yaml.Styles

/-!
The characters that scalars are written with: printable ones and line ends, and only printable ones
where no line is folded. A key on one line is short enough to be told from other text.
-/

namespace FunctionPipeline.Yaml

/-- A property that all printable characters have, and line feeds too if lines are folded. -/
structure Covers (fold : Bool) (p : Char → Prop) : Prop where
  printable : ∀ c, isPrintable c = true → p c
  feed : fold = true → p '\n'

variable {fold : Bool} {indent : Nat} {p : Char → Prop}

theorem covers_lined (fold : Bool) :
    Covers fold fun c => isKeptBreak c = true ∨ isPrintable c = true :=
  ⟨fun _ h => Or.inr h, fun _ => Or.inl (by decide)⟩

theorem covers_printable : Covers false fun c => isPrintable c = true :=
  ⟨fun _ h => h, fun hfold => by cases hfold⟩

private theorem Covers.newLine (h : Covers true p) : ∀ c ∈ newLine indent, p c := by
  intro c hc
  rcases List.mem_cons.mp hc with rfl | hmem
  · exact h.feed rfl
  · rw [List.eq_of_mem_replicate hmem]
    exact h.printable ' ' (by decide)

theorem isLined_newLine (indent : Nat) : IsLined (newLine indent) :=
  (covers_lined true).newLine

namespace Plain

theorem forall_writeFrom (h : Covers fold p) {s : List Char} (hs : ∀ c ∈ s, p c) (column : Nat)
    (before : Option Char) : ∀ c ∈ writeFrom fold indent column before s, p c := by
  induction s generalizing column before with
  | nil => exact fun c hc => by cases hc
  | cons d rest ih =>
      have hrest := ih fun c hc => hs c (by simp [hc])
      rw [writeFrom]
      split
      · next hfold =>
          simp only [Bool.and_eq_true] at hfold
          obtain rfl : fold = true := hfold.1.2
          exact List.forall_mem_append.mpr ⟨h.newLine, hrest _ _⟩
      · exact List.forall_mem_cons.mpr ⟨hs d (by simp), hrest _ _⟩

/-- On one line a plain scalar is written as it is. -/
theorem write_line (indent column : Nat) (s : List Char) : write false indent column s = s := by
  have hfrom (before : Option Char) : writeFrom false indent column before s = s := by
    induction s generalizing column before with
    | nil => rfl
    | cons d s ih => simp [writeFrom, ih]
  exact hfrom none

end Plain

namespace SingleQuoted

theorem forall_writeFrom (h : Covers fold p) {s : List Char} (hs : ∀ c ∈ s, p c) (column : Nat)
    (before : Option Char) : ∀ c ∈ writeFrom fold indent column before s, p c := by
  have hspaces : ∀ c ∈ List.replicate indent ' ', p c := fun c hc => by
    rw [List.eq_of_mem_replicate hc]
    exact h.printable ' ' (by decide)
  have hquote : p '\'' := h.printable '\'' (by decide)
  induction s generalizing column before with
  | nil =>
      rw [writeFrom]
      split
      · exact hspaces
      · exact fun c hc => by cases hc
  | cons d rest ih =>
      have hd := hs d (by simp)
      have hrest := ih fun c hc => hs c (by simp [hc])
      rw [writeFrom]
      split
      next lead column' heq =>
      have hlead : ∀ c ∈ lead, p c := by
        split at heq
        · cases heq
          exact hspaces
        · cases heq
          exact fun c hc => by cases hc
      refine List.forall_mem_append.mpr ⟨hlead, ?_⟩
      split
      · exact List.forall_mem_cons.mpr ⟨hquote, List.forall_mem_cons.mpr ⟨hquote, hrest _ _⟩⟩
      · split
        · exact List.forall_mem_cons.mpr ⟨hd, hrest _ _⟩
        · split
          · next hfold =>
              simp only [Bool.and_eq_true] at hfold
              obtain rfl : fold = true := hfold.1.2
              exact List.forall_mem_append.mpr ⟨h.newLine, hrest _ _⟩
          · exact List.forall_mem_cons.mpr ⟨hd, hrest _ _⟩

/-- On one line only quotes are written otherwise. -/
theorem writeFrom_line {s : List Char} (hs : ∀ c ∈ s, isPrintable c = true) (column : Nat)
    {before : Option Char} (hbefore : ∀ b, before = some b → isPrintable b = true) :
    writeFrom false indent column before s =
      s.flatMap fun c => if c = '\'' then ['\'', '\''] else [c] := by
  induction s generalizing column before with
  | nil => exact writeFrom_nil hbefore
  | cons d rest ih =>
      have hd := hs d (by simp)
      have hrest (column : Nat) := ih (fun c hc => hs c (by simp [hc])) column (some_printable hd)
      rw [writeFrom_cons hbefore hd, List.flatMap_cons]
      split
      · rw [hrest]
        rfl
      · rw [if_neg (by simp), hrest]
        rfl

end SingleQuoted

namespace DoubleQuoted

theorem printable_escape (c : Char) : ∀ d ∈ escape c, isPrintable d = true := by
  have hcode (letter : Char) (width : Nat) (hletter : isPrintable letter = true) :
      ∀ d ∈ '\\' :: letter :: upperHex width c.toNat, isPrintable d = true := by
    have hdigits : ∀ m : Fin 16, isPrintable m.val.digitChar.toUpper = true := by decide
    refine List.forall_mem_cons.mpr ⟨by decide, List.forall_mem_cons.mpr ⟨hletter, ?_⟩⟩
    intro d hd
    obtain ⟨e, he, rfl⟩ := List.mem_map.mp hd
    obtain ⟨m, rfl⟩ := mem_hexDigits he
    exact hdigits m
  unfold escape
  split
  · next letter hfind =>
      have hletters : ∀ e ∈ letters, isPrintable e.2 = true := by decide
      have hletter := hletters _ (List.mem_of_find?_eq_some hfind)
      simpa using ⟨by decide, hletter⟩
  · simp only
    split
    · exact hcode 'x' 2 (by decide)
    · split
      · exact hcode 'u' 4 (by decide)
      · exact hcode 'U' 8 (by decide)

private theorem forall_foldLine (h : Covers true p) (next : Option Char) :
    ∀ c ∈ (foldLine indent next).1, p c := by
  have hslash : p '\\' := h.printable '\\' (by decide)
  unfold foldLine
  split
  · exact List.forall_mem_append.mpr ⟨List.forall_mem_cons.mpr ⟨hslash, h.newLine⟩, by simpa⟩
  · exact List.forall_mem_cons.mpr ⟨hslash, h.newLine⟩

theorem forall_writeFrom (h : Covers fold p) (s : List Char) (column : Nat)
    (before : Option Char) : ∀ c ∈ writeFrom fold indent column before s, p c := by
  induction s generalizing column before with
  | nil => exact fun c hc => by cases hc
  | cons d rest ih =>
      have hescape : ∀ c ∈ escape d, p c := fun c hc => h.printable c (printable_escape d c hc)
      simp only [writeFrom]
      split
      · next hbare =>
          have hd := h.printable d (isPrintable_of_isBare hbare).1
          split
          · next hfold =>
              simp only [Bool.and_eq_true] at hfold
              obtain rfl : fold = true := hfold.1.1.1.1
              exact List.forall_mem_append.mpr
                ⟨forall_foldLine h _, List.forall_mem_cons.mpr ⟨hd, ih _ _⟩⟩
          · exact List.forall_mem_cons.mpr ⟨hd, ih _ _⟩
      · split
        · next hfold =>
            simp only [Bool.and_eq_true] at hfold
            obtain rfl : fold = true := hfold.1.1.1
            exact List.forall_mem_append.mpr
              ⟨List.forall_mem_append.mpr ⟨hescape, forall_foldLine h _⟩, ih _ _⟩
        · exact List.forall_mem_append.mpr ⟨hescape, ih _ _⟩

/-- On one line every character is written for itself. -/
theorem writeFrom_line (s : List Char) (column : Nat) (before : Option Char) :
    writeFrom false indent column before s =
      s.flatMap fun c => if isBare c then [c] else escape c := by
  induction s generalizing column before with
  | nil => rfl
  | cons d rest ih =>
      simp only [writeFrom, Bool.false_and, Bool.false_eq_true, if_false, ih, List.flatMap_cons]
      split <;> rfl

end DoubleQuoted

namespace Literal

private theorem isLined_hints {s : List Char} (hs : IsLined s) (hnonempty : s ≠ []) :
    IsLined (hints s) := by
  obtain ⟨u, bs, rfl, hbs, -, hlast⟩ := exists_trailing hs
  rw [Block.hints_eq hlast hbs hnonempty]
  refine IsLined.append ?_ ?_
  · split
    · exact isLined_nil.cons (Or.inr (by decide))
    · exact isLined_nil
  · cases Block.chompingOf (!u.isEmpty) bs.length with
    | strip => exact isLined_nil.cons (Or.inr (by decide))
    | clip => exact isLined_nil
    | keep => exact isLined_nil.cons (Or.inr (by decide))

theorem isLined_writeLines {s : List Char} (hs : IsLined s) (atStart : Bool) :
    IsLined (writeLines indent atStart s) := by
  induction s generalizing atStart with
  | nil =>
      cases atStart
      · exact isLined_nil.cons (Or.inl (by decide))
      · exact isLined_nil
  | cons c rest ih =>
      have hrest := ih fun d hd => hs d (by simp [hd])
      rw [writeLines]
      split
      · exact (hrest true).cons (hs c (by simp))
      · refine IsLined.append ?_ ((hrest false).cons (hs c (by simp)))
        split
        · exact isLined_spaces indent
        · exact isLined_nil

theorem isLined_write {s : List Char} (hs : IsLined s) (hnonempty : s ≠ []) :
    IsLined (write indent s) :=
  ((isLined_hints hs hnonempty).cons (Or.inr (by decide))).append
    ((isLined_writeLines hs true).cons (Or.inl (by decide)))

end Literal

private theorem forall_quoted {q : Char} {w : List Char} (hq : p q) (h : ∀ c ∈ w, p c) :
    ∀ c ∈ q :: w ++ [q], p c :=
  List.forall_mem_append.mpr ⟨List.forall_mem_cons.mpr ⟨hq, h⟩, by simpa⟩

/-- A key on one line is written with printable characters. -/
theorem printable_simpleKey (s : List Char) (column : Nat) :
    ∀ c ∈ writeScalar .simpleKey indent column s, isPrintable c = true := by
  unfold writeScalar
  cases hstyle : chooseStyle .simpleKey s with
  | plain =>
      exact Plain.forall_writeFrom covers_printable
        (readsPlainly_of_style hstyle).unbroken.printable column none
  | singleQuoted =>
      exact forall_quoted (by decide) (SingleQuoted.forall_writeFrom covers_printable
        (printable_of_singleQuoted hstyle) (column + 1) none)
  | doubleQuoted =>
      exact forall_quoted (by decide)
        (DoubleQuoted.forall_writeFrom covers_printable s (column + 1) none)
  | literal => cases (of_literal hstyle).1

/-- A text that is kept is written in lines. -/
theorem isLined_writeScalar {place : Place} {k : Nat} {s : List Char}
    (hs : isKept place k s = true) (column : Nat) :
    IsLined (writeScalar place indent column s) := by
  obtain ⟨hnext, -⟩ := isKept_iff.mp hs
  unfold writeScalar
  cases hstyle : chooseStyle place s with
  | plain =>
      exact Plain.forall_writeFrom (covers_lined _)
        (isLined_of_printable (readsPlainly_of_style hstyle).unbroken.printable) column none
  | singleQuoted =>
      have hquotable := isQuotable_of_singleQuoted (hnext (Or.inl hstyle)) hstyle
      exact forall_quoted (Or.inr (by decide))
        (SingleQuoted.forall_writeFrom (covers_lined _) hquotable.lined (column + 1) none)
  | doubleQuoted =>
      exact forall_quoted (Or.inr (by decide))
        (DoubleQuoted.forall_writeFrom (covers_lined _) s (column + 1) none)
  | literal =>
      obtain ⟨-, hnonempty, hlined⟩ := of_literal hstyle
      exact Literal.isLined_write (hlined (hnext (Or.inr hstyle))) hnonempty

/-- A key on one line is written alike wherever it stands. -/
theorem writeScalar_simpleKey (indent column : Nat) (s : List Char) :
    writeScalar .simpleKey indent column s = writeScalar .simpleKey 0 0 s := by
  unfold writeScalar
  cases hstyle : chooseStyle .simpleKey s with
  | plain => exact (Plain.write_line _ _ s).trans (Plain.write_line _ _ s).symm
  | singleQuoted =>
      have hline (indent column : Nat) :=
        @SingleQuoted.writeFrom_line indent s (printable_of_singleQuoted hstyle) column none
          (fun b hb => by cases hb)
      simp [SingleQuoted.write, hline]
  | doubleQuoted => simp [DoubleQuoted.write, DoubleQuoted.writeFrom_line]
  | literal => cases (of_literal hstyle).1

/-- The first two characters of a scalar that starts with an indicator are written together. -/
theorem Plain.write_lead (fold : Bool) (indent column : Nat) {s : List Char} (t : List Char)
    (hs : Plain.IsUnbroken s) (hlead : Analysis.leadsWithIndicator s = false) :
    ∃ d w, Plain.write fold indent column s = d :: w ∧ isPrintable d = true ∧ d ≠ ' ' ∧ d ≠ '#' ∧
      Analysis.isLeadIndicator d = false ∧
      (d = '?' ∨ d = ':' ∨ d = '-' → separates (w ++ t).head? = false) := by
  obtain ⟨d, rest, rfl⟩ := List.exists_cons_of_ne_nil hs.nonempty
  obtain ⟨hspace, hsign⟩ := hs.head d rfl
  simp only [Analysis.leadsWithIndicator, Bool.or_eq_false_iff] at hlead
  refine ⟨d, Plain.writeFrom fold indent (column + 1) (some d) rest,
    by simp [Plain.write, Plain.writeFrom, hspace], hs.printable d (by simp), hspace, hsign,
    hlead.1, fun hd => ?_⟩
  have hnext : separates rest.head? = false := by
    rcases hd with rfl | rfl | rfl <;> simpa using hlead.2
  cases rest with
  | nil => cases hnext
  | cons e rest =>
      have he : e ≠ ' ' := by
        rintro rfl
        cases hnext
      simpa [Plain.writeFrom, he] using hnext

/-- A scalar begins with a printable character that neither is passed nor begins a comment. -/
theorem writeScalar_head (place : Place) (s : List Char) (indent column : Nat) :
    ∃ d w, writeScalar place indent column s = d :: w ∧ isPrintable d = true ∧ d ≠ ' ' ∧
      d ≠ '#' := by
  unfold writeScalar
  cases hstyle : chooseStyle place s with
  | plain =>
      have hplain := readsPlainly_of_style hstyle
      obtain ⟨d, w, hw, hprintable, hspace, hsign, -, -⟩ :=
        Plain.write_lead (place = .block) indent column [] hplain.unbroken hplain.lead
      exact ⟨d, w, hw, hprintable, hspace, hsign⟩
  | singleQuoted => exact ⟨'\'', _, rfl, by decide⟩
  | doubleQuoted => exact ⟨'"', _, rfl, by decide⟩
  | literal => exact ⟨'|', _, rfl, by decide⟩

end FunctionPipeline.Yaml

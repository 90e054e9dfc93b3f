import FunctionPipeline.Yaml.Printer
import FunctionPipeline.Proofs.Yaml.LiteralBlocks
import FunctionPipeline.Proofs.Yaml.PlainScalars
import FunctionPipeline.Proofs.Yaml.QuotedScalars

/-!
What the style chosen for a text says about it. The analysis is made in one pass over the text; here
each of its answers becomes what the reader of that style needs. One control character is shown as
it is although a reader takes it for a line feed: the next-line control, U+0085.
-/

namespace FunctionPipeline.Yaml

/-- What is no line end and can be shown without escapes is printable. -/
theorem isPrintable_of_not_special {c : Char} (hbreak : isBreak c = false)
    (h : Analysis.isSpecial c = false) : isPrintable c = true := by
  have hfeed : c ≠ '\n' := by
    rintro rfl
    cases hbreak
  have hmark : c ≠ byteOrderMark := by
    rintro rfl
    revert h
    decide
  simp only [Analysis.isSpecial, hfeed, decide_false, Bool.false_or, Bool.not_eq_false',
    Bool.or_eq_true, Bool.and_eq_true, decide_eq_true_eq, beq_iff_eq, bne_iff_ne, ne_eq] at h
  refine isPrintable_of_isAllowed ?_ (by omega) hbreak hmark
  simp only [isAllowed, Bool.or_eq_true, Bool.and_eq_true, decide_eq_true_eq, beq_iff_eq]
  omega

private theorem isLined_of_not_special {s : List Char} (hnext : '\x85' ∉ s)
    (h : s.any Analysis.isSpecial = false) : IsLined s := by
  intro c hc
  rw [List.any_eq_false] at h
  by_cases hbreak : isBreak c = true
  · refine Or.inl ?_
    have hne : c ≠ '\x85' := fun heq => hnext (heq ▸ hc)
    simp [isKeptBreak, hbreak, hne]
  · exact Or.inr (isPrintable_of_not_special (by simpa using hbreak) (by simpa using h c hc))

private theorem printable_of_not_special {s : List Char} (hline : s.any isBreak = false)
    (h : s.any Analysis.isSpecial = false) : ∀ c ∈ s, isPrintable c = true := by
  intro c hc
  rw [List.any_eq_false] at h hline
  exact isPrintable_of_not_special (by simpa using hline c hc) (by simpa using h c hc)

private theorem holdsIndicator_append {before : Char} {a b : List Char}
    (h : Analysis.holdsIndicator before (a ++ b) = false) :
    ∃ c, Analysis.holdsIndicator c b = false := by
  induction a generalizing before with
  | nil => exact ⟨before, h⟩
  | cons c a ih =>
      simp only [List.cons_append, Analysis.holdsIndicator, Bool.or_eq_false_iff] at h
      exact ih h.2

/-- What keeps an indicator from being held keeps a plain scalar from being ended. -/
theorem isUnbroken_of_indicators {s : List Char} (hnonempty : s ≠ [])
    (hprintable : ∀ c ∈ s, isPrintable c = true)
    (hends : Analysis.atEnds Analysis.isSpace s = false)
    (h : Analysis.hasIndicators s = false) : Plain.IsUnbroken s := by
  obtain ⟨c, rest, rfl⟩ := List.exists_cons_of_ne_nil hnonempty
  simp only [Analysis.hasIndicators, Analysis.leadsWithIndicator, Bool.or_eq_false_iff] at h
  simp only [Analysis.atEnds, Bool.or_eq_false_iff] at hends
  obtain ⟨⟨-, hlead, hfirst⟩, hholds⟩ := h
  refine ⟨?_, ?_, hnonempty, hprintable, ?_, ?_⟩
  · intro d hd
    cases hd
    refine ⟨by simpa [Analysis.isSpace] using hends.1, ?_⟩
    rintro rfl
    cases hlead
  · intro hlast
    rw [hlast] at hends
    cases hends.2
  · intro a b heq
    cases a with
    | nil =>
        cases heq
        simpa using hfirst
    | cons d a =>
        cases heq
        obtain ⟨e, he⟩ := holdsIndicator_append hholds
        simp only [Analysis.holdsIndicator, Bool.or_eq_false_iff] at he
        simpa using he.1.1
  · intro a b heq
    cases a with
    | nil =>
        cases heq
        simp [Analysis.isSpace] at hends
    | cons d a =>
        cases heq
        obtain ⟨e, he⟩ := holdsIndicator_append hholds
        simp [Analysis.holdsIndicator, isSeparating] at he

/-- A text in another style than single quotes is not empty. -/
theorem ne_nil_of_style {place : Place} {s : List Char} {style : Style}
    (h : chooseStyle place s = style) (hstyle : style ≠ .singleQuoted) : s ≠ [] := by
  rintro rfl
  have hempty : chooseStyle place [] = .singleQuoted := by cases place <;> decide
  exact hstyle (h.symm.trans hempty)

structure ReadsPlainly (s : List Char) : Prop where
  unbroken : Plain.IsUnbroken s
  tag : Plain.tag s = .str
  lead : Analysis.leadsWithIndicator s = false
  marker : Analysis.leadsLikeMarker s = false

theorem readsPlainly_of_style {place : Place} {s : List Char}
    (h : chooseStyle place s = .plain) : ReadsPlainly s := by
  have hnonempty : s ≠ [] := ne_nil_of_style h (by decide)
  have hempty : s.isEmpty = false := by simpa using hnonempty
  unfold chooseStyle at h
  simp only [Analysis.of, hempty, Bool.false_eq_true, if_false] at h
  split at h
  · split at h <;> cases h
  · split at h
    · next hplain =>
        simp only [Bool.and_eq_true, decide_eq_true_eq, Bool.not_eq_true',
          Bool.or_eq_false_iff] at hplain
        obtain ⟨⟨htag, -⟩, ⟨⟨⟨⟨hspaces, -⟩, -⟩, -, hspecial⟩, hline⟩, hindicators⟩ := hplain
        refine ⟨isUnbroken_of_indicators hnonempty (printable_of_not_special hline hspecial)
          hspaces hindicators, htag, ?_, ?_⟩
        · simp only [Analysis.hasIndicators, Bool.or_eq_false_iff] at hindicators
          exact hindicators.1.2
        · simp only [Analysis.hasIndicators, Bool.or_eq_false_iff] at hindicators
          exact hindicators.1.1
    · split at h <;> cases h

/-- Single quotes are for a text without line feeds, and on one line for one without line ends. -/
private theorem of_singleQuoted {place : Place} {s : List Char}
    (h : chooseStyle place s = .singleQuoted) (hempty : s.isEmpty = false) :
    '\n' ∉ s ∧ Analysis.anyPair Analysis.isSpace isBreak s = false ∧
      Analysis.anyPair isBreak Analysis.isSpace s = false ∧
      s.any Analysis.isSpecial = false ∧ (place = .simpleKey → s.any isBreak = false) := by
  unfold chooseStyle at h
  simp only [Analysis.of, hempty, Bool.false_eq_true, if_false] at h
  split at h
  · split at h <;> cases h
  · split at h
    · cases h
    · split at h
      · next hline _ hquoted =>
          simp only [Bool.and_eq_true, Bool.not_eq_true', Bool.or_eq_false_iff] at hquoted
          obtain ⟨⟨hafter, hbefore, hspecial⟩, hplace⟩ := hquoted
          refine ⟨by simpa using hline, hbefore, hafter, hspecial, ?_⟩
          rintro rfl
          simpa using hplace
      · cases h

theorem isQuotable_of_singleQuoted {place : Place} {s : List Char} (hnext : '\x85' ∉ s)
    (h : chooseStyle place s = .singleQuoted) : SingleQuoted.IsQuotable s := by
  cases hempty : s.isEmpty with
  | true =>
      rw [List.isEmpty_iff] at hempty
      subst hempty
      exact .of_printable fun c hc => by cases hc
  | false =>
      obtain ⟨hfeed, hbefore, hafter, hspecial, -⟩ := of_singleQuoted h hempty
      exact ⟨isLined_of_not_special hnext hspecial, hfeed, hbefore, hafter⟩

theorem printable_of_singleQuoted {s : List Char}
    (h : chooseStyle .simpleKey s = .singleQuoted) : ∀ c ∈ s, isPrintable c = true := by
  intro c hc
  have hempty : s.isEmpty = false := by
    cases s with
    | nil => cases hc
    | cons => rfl
  obtain ⟨-, -, -, hspecial, hline⟩ := of_singleQuoted h hempty
  exact printable_of_not_special (hline rfl) hspecial c hc

/-- A literal block is for a text with line feeds that is no key on one line. -/
theorem of_literal {place : Place} {s : List Char} (h : chooseStyle place s = .literal) :
    place = .block ∧ s ≠ [] ∧ ('\x85' ∉ s → IsLined s) := by
  have hnonempty : s ≠ [] := ne_nil_of_style h (by decide)
  have hempty : s.isEmpty = false := by simpa using hnonempty
  unfold chooseStyle at h
  simp only [Analysis.of, hempty, Bool.false_eq_true, if_false] at h
  split at h
  · split at h
    · next hliteral =>
        simp only [Bool.and_eq_true, decide_eq_true_eq, Bool.not_eq_true',
          Bool.or_eq_false_iff] at hliteral
        exact ⟨hliteral.1, hnonempty, fun hnext => isLined_of_not_special hnext hliteral.2.2.2⟩
    · cases h
  · split at h
    · cases h
    · split at h <;> cases h

/-- Whether the form that is chosen for a text at a place and an indentation stands for the text. In
single quotes and in a literal block the next-line control stands as it is, and is read as a line
feed or a space; in double quotes lines have to fold well. -/
def isKept (place : Place) (indent : Nat) (s : List Char) : Bool :=
  match chooseStyle place s with
  | .plain => true
  | .singleQuoted | .literal => !s.contains '\x85'
  | .doubleQuoted =>
      place == .simpleKey || indent < bestWidth || !DoubleQuoted.holdsEscapedSpace s.tail

/-- What a style asks of a text that is kept. -/
theorem isKept_iff {place : Place} {indent : Nat} {s : List Char} :
    isKept place indent s = true ↔
      ((chooseStyle place s = .singleQuoted ∨ chooseStyle place s = .literal) → '\x85' ∉ s) ∧
      (chooseStyle place s = .doubleQuoted →
        DoubleQuoted.FoldsWell (place = .block) indent s.tail) := by
  unfold isKept DoubleQuoted.FoldsWell
  cases chooseStyle place s <;> cases place <;> simp

end FunctionPipeline.Yaml

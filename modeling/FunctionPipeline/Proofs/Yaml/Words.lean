import FunctionPipeline.Proofs.Decimal.PointText
import FunctionPipeline.Proofs.Yaml.KeptDocuments

/-!
The words for null, booleans, integers and finite numbers. An unquoted word has the tag of its kind
by its form, and what is read from it is the value that it was written for.
-/

namespace FunctionPipeline.Yaml

open Numeral

/-- A number without its sign: a digit, and then characters of written numbers. -/
structure IsMagnitude (s : List Char) : Prop where
  marks : s ⊆ marks
  head : ∃ d rest, s = d :: rest ∧ d.isDigit = true

def signed (negative : Bool) (s : List Char) : List Char := if negative then '-' :: s else s

namespace IsMagnitude

variable {s : List Char}

theorem signed_subset (h : IsMagnitude s) (negative : Bool) :
    signed negative s ⊆ Numeral.marks := by
  cases negative with
  | false => exact h.marks
  | true => exact List.cons_subset.mpr ⟨by decide, h.marks⟩

theorem signed_ne_nil (h : IsMagnitude s) (negative : Bool) : signed negative s ≠ [] := by
  obtain ⟨d, rest, rfl, -⟩ := h.head
  cases negative <;> simp [signed]

theorem unbroken (h : IsMagnitude s) (negative : Bool) : Plain.IsUnbroken (signed negative s) := by
  have hmarks := h.signed_subset negative
  have hne {c : Char} (hc : c ∉ Numeral.marks) : c ∉ signed negative s := fun hmem =>
    hc (hmarks hmem)
  refine ⟨fun c hc => ?_, fun hlast => ?_, h.signed_ne_nil negative,
    forall_marks hmarks (by decide), fun a b heq => ?_, fun a b heq => ?_⟩
  · have hmem : c ∈ signed negative s := List.mem_of_head? hc
    constructor
    · rintro rfl
      exact hne (by decide) hmem
    · rintro rfl
      exact hne (by decide) hmem
  · exact hne (by decide) (List.mem_of_getLast? hlast)
  · exact absurd (show ':' ∈ signed negative s by simp [heq]) (hne (by decide))
  · exact absurd (show '#' ∈ signed negative s by simp [heq]) (hne (by decide))

theorem lead (h : IsMagnitude s) (negative : Bool) :
    Analysis.leadsWithIndicator (signed negative s) = false := by
  have hindicator := forall_marks (h.signed_subset negative)
    (p := fun c => !Analysis.isLeadIndicator c) (by decide)
  have hseparating := forall_marks h.marks (p := fun c => !isSeparating c) (by decide)
  obtain ⟨d, rest, rfl, hd⟩ := h.head
  have hne {c : Char} (hc : c.isDigit = false) : d ≠ c := by
    rintro rfl
    rw [hd] at hc
    cases hc
  cases negative with
  | false =>
      have hfirst : Analysis.isLeadIndicator d = false := by
        simpa using hindicator d (by simp [signed])
      simp [signed, Analysis.leadsWithIndicator, hfirst, @hne '?' (by decide),
        @hne ':' (by decide), @hne '-' (by decide)]
  | true =>
      have hfirst : Analysis.isLeadIndicator '-' = false := by decide
      have hsecond : isSeparating d = false := by simpa using hseparating d (by simp)
      simp [signed, Analysis.leadsWithIndicator, hfirst, separates, hsecond]

theorem afterSign_signed (h : IsMagnitude s) (negative : Bool) :
    Plain.afterSign (signed negative s) = s := by
  obtain ⟨d, rest, rfl, hd⟩ := h.head
  cases negative with
  | false =>
      change Plain.afterSign (d :: rest) = d :: rest
      unfold Plain.afterSign
      split
      · next heq => cases heq; exact absurd hd (by decide)
      · next heq => cases heq; exact absurd hd (by decide)
      · rfl
  | true => rfl

theorem unsigned_signed (h : IsMagnitude s) (negative : Bool) :
    ScalarValue.unsigned (signed negative s) = (negative, s) := by
  have hline : (signed negative s).filter (· ≠ '_') = signed negative s := by
    rw [List.filter_eq_self]
    exact forall_marks (h.signed_subset negative) (by decide)
  obtain ⟨d, rest, rfl, hd⟩ := h.head
  unfold ScalarValue.unsigned
  rw [hline]
  cases negative with
  | false =>
      rw [show signed false (d :: rest) = d :: rest from rfl]
      split
      · next heq => cases heq; exact absurd hd (by decide)
      · next heq => cases heq; exact absurd hd (by decide)
      · rfl
  | true => rfl

/-- A number is none of the words that begin with a letter or a point. -/
theorem ne_word (h : IsMagnitude s) (negative : Bool) {word : String}
    (hword : (word.toList.head?.map fun c => c.isDigit || c = '-').getD false = false) :
    (String.ofList (signed negative s) == word) = false := by
  rw [beq_eq_false_iff_ne]
  rintro rfl
  obtain ⟨d, rest, rfl, hd⟩ := h.head
  rw [String.toList_ofList] at hword
  cases negative with
  | false =>
      change (d.isDigit || decide (d = '-')) = false at hword
      rw [hd] at hword
      cases hword
  | true => cases hword

theorem notin_words (h : IsMagnitude s) (negative : Bool) {words : List String}
    (hwords : ∀ word ∈ words,
      (word.toList.head?.map fun c => c.isDigit || c = '-').getD false = false) :
    words.contains (String.ofList (signed negative s)) = false := by
  rw [List.contains_eq_any_beq, List.any_eq_false]
  intro word hmem
  rw [h.ne_word negative (hwords word hmem)]
  exact Bool.false_ne_true

theorem isPointFloat_signed (h : IsMagnitude s) (negative : Bool) :
    Plain.isPointFloat (signed negative s) = false := by
  obtain ⟨d, rest, rfl, hd⟩ := h.head
  cases negative with
  | false =>
      change Plain.isPointFloat (d :: rest) = false
      unfold Plain.isPointFloat
      split
      · next heq => cases heq; exact absurd hd (by decide)
      · rfl
  | true => rfl

/-- A number is no word for a boolean, and no line end is after it. -/
theorem tag_signed (h : IsMagnitude s) (negative : Bool) :
    Plain.tag (signed negative s) =
      if Plain.isFloat (signed negative s) then .float
      else if Plain.isUnsigned s then .int
      else Plain.tag (signed negative s) := by
  have hlast : (signed negative s).getLast? ≠ some '\n' := fun hlast =>
    absurd (h.signed_subset negative (List.mem_of_getLast? hlast)) (by decide)
  have htag : Plain.tag (signed negative s) = Plain.tagOfLine (signed negative s) := by
    unfold Plain.tag
    split
    · next heq => exact absurd heq hlast
    · rfl
  have htruths : Plain.truths.any (·.1 == String.ofList (signed negative s)) = false := by
    rw [List.any_eq_false]
    intro e hmem
    have hhead : Plain.truths.all fun e =>
        !(e.1.toList.head?.map fun c => c.isDigit || c = '-').getD false := by decide
    have hword := List.all_eq_true.mp hhead e hmem
    rw [Bool.not_eq_true'] at hword
    rw [BEq.comm, h.ne_word negative hword]
    exact Bool.false_ne_true
  simp only [htag, Plain.tagOfLine, htruths, Plain.isInt, h.afterSign_signed, Bool.false_eq_true,
    if_false]
  split
  · rfl
  · split <;> rfl

end IsMagnitude

theorem dropWhile_digits {s : List Char} (hs : AreDigits s) (t : List Char) :
    (s ++ t).dropWhile Plain.isDigitOrLine = t.dropWhile Plain.isDigitOrLine :=
  List.dropWhile_append_of_pos fun c hc => by simp [Plain.isDigitOrLine, hs c hc]

theorem digitRun?_digits {s : List Char} (hs : AreDigits s) (hnonempty : s ≠ [])
    (t : List Char) : Plain.digitRun? (s ++ t) = some (t.dropWhile Plain.isDigitOrLine) := by
  obtain ⟨d, rest, rfl⟩ := List.exists_cons_of_ne_nil hnonempty
  have hrest : AreDigits rest := fun c hc => hs c (by simp [hc])
  simp [Plain.digitRun?, hs d (by simp), dropWhile_digits hrest]

section Integers

theorem isMagnitude_toDigits (n : Nat) : IsMagnitude (Nat.toDigits 10 n) := by
  refine ⟨fun c hc => mem_marks_of_isDigit (areDigits_toDigits n c hc), ?_⟩
  obtain ⟨d, rest, hcons⟩ := List.exists_cons_of_ne_nil (@Nat.toDigits_ne_nil n 10)
  exact ⟨d, rest, hcons, areDigits_toDigits n d (by simp [hcons])⟩

theorem isUnsigned_toDigits (n : Nat) : Plain.isUnsigned (Nat.toDigits 10 n) = true := by
  by_cases hzero : n = 0
  · rw [hzero]
    rfl
  · obtain ⟨d, rest, hcons, hd⟩ := exists_toDigits hzero
    have hdigits := areDigits_toDigits n
    rw [hcons] at hdigits ⊢
    have hmore : AreDigits rest := fun c hc => hdigits c (by simp [hc])
    have hrest := dropWhile_digits hmore []
    rw [List.append_nil] at hrest
    simp [Plain.isUnsigned, hd, hdigits d (by simp), hrest]

theorem isFloat_toDigits (n : Nat) (negative : Bool) :
    Plain.isFloat (signed negative (Nat.toDigits 10 n)) = false := by
  have hmagnitude := isMagnitude_toDigits n
  have hrun := digitRun?_digits (areDigits_toDigits n) Nat.toDigits_ne_nil []
  rw [List.append_nil] at hrun
  have hinfinity : [".inf", ".Inf", ".INF"].contains (String.ofList (Nat.toDigits 10 n)) = false :=
    hmagnitude.notin_words false (by decide)
  have hnan : [".nan", ".NaN", ".NAN"].contains
      (String.ofList (signed negative (Nat.toDigits 10 n))) = false :=
    hmagnitude.notin_words negative (by decide)
  rw [Plain.isFloat, hmagnitude.afterSign_signed, hmagnitude.isPointFloat_signed, hinfinity, hnan,
    Plain.isDecimalFloat, Plain.isSexagesimalFloat, hrun]
  rfl

theorem natural?_toDigits (n : Nat) : natural? 10 (Nat.toDigits 10 n) = some n := by
  rw [natural?_digits (areDigits_toDigits n) Nat.toDigits_ne_nil, Nat.ofDigitChars_ten_toDigits]

theorem int?_toDigits (n : Nat) : int? 10 (Nat.toDigits 10 n) = some (n : Int) := by
  have hmagnitude := isMagnitude_toDigits n
  have hsign : sign (Nat.toDigits 10 n) = (false, Nat.toDigits 10 n) := by
    obtain ⟨d, rest, hcons, hd⟩ := hmagnitude.head
    rw [hcons, sign_digit hd]
  have hunmarked : unmarked 10 (Nat.toDigits 10 n) = Nat.toDigits 10 n := by
    unfold unmarked
    split
    · rfl
    · rfl
  simp [int?, simplified_marks hmagnitude.marks, hsign, hunmarked,
    ungrouped?_marks hmagnitude.marks, natural?_toDigits]

/-- An integer with few enough digits is read back. -/
theorem int_signed {n : Nat} (hlength : (Nat.toDigits 10 n).length ≤ digitLimit)
    (negative : Bool) : ScalarValue.int (signed negative (Nat.toDigits 10 n)) =
      .ok (if negative then -(n : Int) else n) := by
  have hmagnitude := isMagnitude_toDigits n
  have hcolon : ':' ∉ Nat.toDigits 10 n := fun hmem =>
    absurd (hmagnitude.marks hmem) (by decide)
  have hdecimal : ScalarValue.decimal (Nat.toDigits 10 n) = .ok (n : Int) := by
    have hdigits : digitsIn (Nat.toDigits 10 n) ≤ digitLimit :=
      Nat.le_trans (List.length_filter_le ..) hlength
    simp [ScalarValue.decimal, int?_toDigits, Nat.not_lt.mpr hdigits]
  unfold ScalarValue.int
  rw [hmagnitude.unsigned_signed]
  by_cases hzero : n = 0
  · subst hzero
    rfl
  · obtain ⟨d, rest, hcons, hd⟩ := exists_toDigits hzero
    rw [hcons] at hcolon hdecimal ⊢
    simp [hd, hdecimal]
    exact fun hmem => absurd (List.mem_cons.mpr hmem) hcolon

theorem scalarWord_int (i : Int) :
    scalarWord (.int i) = signed (decide (i < 0)) (Nat.toDigits 10 i.natAbs) := by
  change (toString i).toList = _
  rw [toList_toString]
  by_cases hneg : i < 0
  · rw [if_pos hneg, decide_eq_true hneg]
    rfl
  · rw [if_neg hneg, decide_eq_false hneg]
    rfl

/-- An integer that is not too long is read back from its word. -/
theorem isWord_int {i : Int} (h : isLongInteger i = false) : IsWord (.int i) := by
  have hmagnitude := isMagnitude_toDigits i.natAbs
  have hlength : (Nat.toDigits 10 i.natAbs).length ≤ digitLimit :=
    length_toDigits_le (by decide) h
  have htag : Plain.tag (signed (decide (i < 0)) (Nat.toDigits 10 i.natAbs)) = .int := by
    rw [hmagnitude.tag_signed, isFloat_toDigits, isUnsigned_toDigits]
    rfl
  refine ⟨rfl, ?_, ?_, fun number => ?_⟩
  all_goals rw [scalarWord_int]
  · exact hmagnitude.unbroken _
  · exact hmagnitude.lead _
  · rw [htag]
    change Built.ofScalar (do return .int (← ScalarValue.int _)) = _
    rw [int_signed hlength, signed_natAbs]
    rfl

end Integers

section Floats

theorem isMagnitude_chars (t : PointText) : IsMagnitude t.chars :=
  ⟨t.chars_subset, t.exists_head⟩

theorem isExponent_exponentChars (exponent : Option Int) :
    Plain.isExponent (PointText.exponentChars exponent) = true := by
  cases exponent with
  | none => rfl
  | some e =>
      obtain ⟨digits, htext, hdigits, hnonempty, -⟩ := PointText.toList_exponentText e
      have hall : digits.all Char.isDigit = true := List.all_eq_true.mpr hdigits
      rw [PointText.exponentChars, htext]
      split <;> simp [Plain.isExponent, Plain.allDigits, hnonempty, hall]

theorem isFloat_chars (t : PointText) (negative : Bool) :
    Plain.isFloat (signed negative t.chars) = true := by
  have hexponent : (PointText.exponentChars t.exponent).dropWhile Plain.isDigitOrLine =
      PointText.exponentChars t.exponent := by
    cases t.exponent <;> rfl
  have hdecimal : Plain.isDecimalFloat t.chars = true := by
    have hpoint : Plain.isDigitOrLine '.' = false := by decide
    unfold Plain.isDecimalFloat
    rw [PointText.chars, digitRun?_digits t.whole_digits t.whole_nonempty]
    simp only [List.dropWhile_cons, hpoint, Bool.false_eq_true, if_false]
    rw [dropWhile_digits t.part_digits, hexponent]
    exact isExponent_exponentChars t.exponent
  rw [Plain.isFloat, (isMagnitude_chars t).afterSign_signed, hdecimal]
  rfl

theorem float_signed (origin : Nat) {rank : Fin Binary64.rankCount} {t : PointText}
    (hrank : t.value.rank = rank) (negative : Bool) :
    ScalarValue.float origin (signed negative t.chars) = .ok (.finite negative rank) := by
  have hmagnitude := isMagnitude_chars t
  have hsigned := hmagnitude.signed_subset negative
  have hlines : (signed negative t.chars).all (fun c => decide (c = '_')) = false := by
    obtain ⟨c, hc⟩ := List.exists_mem_of_ne_nil _ (hmagnitude.signed_ne_nil negative)
    have hne : c ≠ '_' := by
      rintro rfl
      exact absurd (hsigned hc) (by decide)
    rw [List.all_eq_false]
    exact ⟨c, hc, by simp [hne]⟩
  have hlower : (signed negative t.chars).map Char.toLower = signed negative t.chars := by
    refine (List.map_congr_left fun c hc => ?_).trans (List.map_id _)
    exact of_decide_eq_true (forall_marks hsigned (p := fun c => c.toLower = c) (by decide) c hc)
  have hcolon : t.chars.contains ':' = false := by
    have hmem : ':' ∉ t.chars := fun hmem => absurd (hmagnitude.marks hmem) (by decide)
    simp [hmem]
  have hnan : (String.ofList t.chars == ".nan") = false := hmagnitude.ne_word false (by decide)
  have hinfinity : (String.ofList t.chars == ".inf") = false := hmagnitude.ne_word false (by decide)
  have hread : float? origin t.chars = some (.finite false rank) := by
    rw [t.float?_chars, DecimalNumber.ofDecimal_eq, hrank, Binary64.ofRank, dif_pos rank.isLt]
  unfold ScalarValue.float
  rw [hlines, hlower, hmagnitude.unsigned_signed]
  simp only [hnan, hinfinity, hcolon, hread, Bool.false_eq_true, if_false]
  cases negative <;> rfl

/-- A finite number is read back from its word. -/
theorem isWord_float (negative : Bool) (rank : Fin Binary64.rankCount) :
    IsWord (.float (.finite negative rank)) := by
  obtain ⟨t, htext, -, hrank⟩ := NumberStyle.magnitude_eq rank
  have hword : scalarWord (.float (.finite negative rank)) = signed negative t.chars := by
    rw [← htext]
    change (NumberStyle.document.text (.finite negative rank)).toList = _
    rw [NumberStyle.text, String.toList_append]
    cases negative <;> rfl
  have htag : Plain.tag (signed negative t.chars) = .float := by
    rw [(isMagnitude_chars t).tag_signed, isFloat_chars]
    rfl
  refine ⟨rfl, ?_, ?_, fun number => ?_⟩
  all_goals rw [hword]
  · exact (isMagnitude_chars t).unbroken negative
  · exact (isMagnitude_chars t).lead negative
  · rw [htag]
    change Built.ofScalar (do return .float (← ScalarValue.float _ _)) = _
    rw [float_signed _ hrank]
    rfl

end Floats

theorem isWord_truth (b : Bool) : IsWord (.bool b) := by
  cases b
  · exact ⟨rfl, isUnbroken_of_indicators (by decide) (List.all_eq_true.mp (by decide)) (by decide)
      (by decide), by decide, fun _ => rfl⟩
  · exact ⟨rfl, isUnbroken_of_indicators (by decide) (List.all_eq_true.mp (by decide)) (by decide)
      (by decide), by decide, fun _ => rfl⟩

theorem isWord_null : IsWord .null :=
  ⟨rfl, isUnbroken_of_indicators (by decide) (List.all_eq_true.mp (by decide)) (by decide)
    (by decide), by decide, fun _ => rfl⟩

end FunctionPipeline.Yaml

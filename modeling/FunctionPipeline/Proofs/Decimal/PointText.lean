import FunctionPipeline.Proofs.Decimal.Shortest
import FunctionPipeline.Proofs.Text.Numeral

/-!
Written decimal numbers. The text of a magnitude, with its point in place or with an exponent, is
read as a decimal number that has the magnitude's rank.
-/

namespace FunctionPipeline

/-- A written decimal number: digits in front of a point, one at least, digits after it, and maybe
an exponent. -/
structure PointText where
  whole : List Char
  part : List Char
  exponent : Option Int
  whole_digits : AreDigits whole
  part_digits : AreDigits part
  whole_nonempty : whole ≠ []

namespace PointText

def exponentChars : Option Int → List Char
  | none => []
  | some e => 'e' :: (NumberStyle.exponentText e).toList

def chars (t : PointText) : List Char := t.whole ++ '.' :: (t.part ++ exponentChars t.exponent)

/-- The number, with the digits after the point counted in the exponent. -/
def value (t : PointText) : DecimalNumber :=
  ⟨Nat.ofDigitChars 10 (t.whole ++ t.part) 0, t.exponent.getD 0 - t.part.length⟩

/-- No zero in front of the other digits, and a digit after the point. -/
structure IsStrict (t : PointText) : Prop where
  whole : IsWhole t.whole
  part : t.part ≠ []

theorem toList_exponentText (e : Int) :
    ∃ digits, (NumberStyle.exponentText e).toList = (if e < 0 then '-' else '+') :: digits ∧
      AreDigits digits ∧ digits ≠ [] ∧ Nat.ofDigitChars 10 digits 0 = e.natAbs := by
  have hvalue : Nat.ofDigitChars 10 (Nat.toDigits 10 e.natAbs) 0 = e.natAbs :=
    Nat.ofDigitChars_ten_toDigits
  unfold NumberStyle.exponentText
  simp only [String.toList_append]
  by_cases hshort : (toString e.natAbs).length < 2
  · refine ⟨'0' :: Nat.toDigits 10 e.natAbs, ?_, ?_, by simp, ?_⟩
    · rw [if_pos hshort, String.toList_append, Nat.toString_eq_repr, Nat.toList_repr]
      split <;> rfl
    · intro c hc
      rcases List.mem_cons.mp hc with rfl | hmem
      · decide
      · exact areDigits_toDigits _ c hmem
    · rw [Nat.ofDigitChars_cons]
      exact hvalue
  · refine ⟨Nat.toDigits 10 e.natAbs, ?_, areDigits_toDigits _, Nat.toDigits_ne_nil, hvalue⟩
    rw [if_neg hshort, Nat.toString_eq_repr, Nat.toList_repr]
    split <;> rfl

theorem exponent?_exponentText (e : Int) :
    Numeral.exponent? (NumberStyle.exponentText e).toList = some e := by
  obtain ⟨digits, htext, hdigits, hnonempty, hvalue⟩ := toList_exponentText e
  have hguard : (digits.isEmpty || !digits.all Char.isDigit) = false := by
    simp [hnonempty, List.all_eq_true.mpr hdigits]
  have hread : Numeral.natural? 10 digits = some e.natAbs := by
    rw [Numeral.natural?_digits hdigits hnonempty, hvalue]
  rw [htext]
  by_cases hneg : e < 0
  · have hint : -(e.natAbs : Int) = e := by omega
    rw [if_pos hneg]
    simp only [Numeral.exponent?, Numeral.sign, hguard, hread, Bool.false_eq_true, if_false,
      if_true, Option.bind_eq_bind, Option.bind_some, hint]
    rfl
  · have hint : (e.natAbs : Int) = e := by omega
    rw [if_neg hneg]
    simp only [Numeral.exponent?, Numeral.sign, hguard, hread, Bool.false_eq_true, if_false,
      Option.bind_eq_bind, Option.bind_some, hint]
    rfl

theorem exponentChars_subset (exponent : Option Int) : exponentChars exponent ⊆ Numeral.marks := by
  cases exponent with
  | none => exact List.nil_subset _
  | some e =>
      obtain ⟨digits, htext, hdigits, -⟩ := toList_exponentText e
      have hsign : (if e < 0 then '-' else '+') ∈ Numeral.marks := by split <;> decide
      intro c hc
      rw [exponentChars, htext] at hc
      simp only [List.mem_cons] at hc
      rcases hc with rfl | rfl | hmem
      · decide
      · exact hsign
      · exact Numeral.mem_marks_of_isDigit (hdigits c hmem)

theorem chars_subset (t : PointText) : t.chars ⊆ Numeral.marks := by
  intro c hc
  simp only [chars, List.mem_append, List.mem_cons] at hc
  rcases hc with hmem | rfl | hmem | hmem
  · exact Numeral.mem_marks_of_isDigit (t.whole_digits c hmem)
  · decide
  · exact Numeral.mem_marks_of_isDigit (t.part_digits c hmem)
  · exact exponentChars_subset t.exponent hmem

/-- A written decimal number begins with a digit. -/
theorem exists_head (t : PointText) : ∃ d rest, t.chars = d :: rest ∧ d.isDigit = true := by
  obtain ⟨d, w, hw⟩ := List.exists_cons_of_ne_nil t.whole_nonempty
  exact ⟨d, w ++ '.' :: (t.part ++ exponentChars t.exponent), by rw [chars, hw]; rfl,
    t.whole_digits d (by simp [hw])⟩

theorem toLower_digit {c : Char} (h : c.isDigit = true) : c.toLower = c := by
  have hbounds := Numeral.isDigit_bounds h
  refine dif_neg ?_
  rintro ⟨hfrom, -⟩
  have hletter : 65 ≤ c.toNat := UInt32.le_iff_toNat_le.mp hfrom
  omega

/-- What begins with a digit is none of the words for infinities and not-a-number. -/
private theorem ne_word {d : Char} {rest : List Char} (hd : d.isDigit = true) {word : String}
    (hword : (word.toList.head?.map Char.isDigit).getD false = false) :
    (String.ofList ((d :: rest).map Char.toLower) == word) = false := by
  rw [beq_eq_false_iff_ne]
  rintro rfl
  rw [String.toList_ofList, List.map_cons, toLower_digit hd] at hword
  rw [List.head?_cons, Option.map_some, hd] at hword
  cases hword

theorem float?_chars (origin : Nat) (t : PointText) :
    Numeral.float? origin t.chars = some (.ofDecimal false t.value.digits t.value.exponent) := by
  obtain ⟨d, rest, hhead, hd⟩ := t.exists_head
  have hsign : Numeral.sign t.chars = (false, t.chars) := by
    rw [hhead, Numeral.sign_digit hd]
  have hword {word : String} (h : (word.toList.head?.map Char.isDigit).getD false = false) :
      (String.ofList (t.chars.map Char.toLower) == word) = false := by
    rw [hhead]
    exact ne_word hd h
  have hwhole : t.chars.span Char.isDigit =
      (t.whole, '.' :: (t.part ++ exponentChars t.exponent)) :=
    Numeral.span_digits t.whole_digits rfl
  have hpart : (t.part ++ exponentChars t.exponent).span Char.isDigit =
      (t.part, exponentChars t.exponent) := by
    apply Numeral.span_digits t.part_digits
    cases t.exponent <;> rfl
  have hread : Numeral.natural? 10 (t.whole ++ t.part) =
      some (Nat.ofDigitChars 10 (t.whole ++ t.part) 0) :=
    Numeral.natural?_digits (t.whole_digits.append t.part_digits) (by simp [t.whole_nonempty])
  unfold Numeral.float?
  rw [Numeral.simplified_marks t.chars_subset, Numeral.ungrouped?_marks t.chars_subset]
  simp only [Option.bind_eq_bind, Option.bind_some, hsign, hwhole]
  rw [hword rfl, hword rfl, hword rfl]
  have hnonempty : (t.whole.isEmpty && t.part.isEmpty) = false := by simp [t.whole_nonempty]
  simp only [Bool.or_self, Bool.false_eq_true, if_false, hpart, hnonempty, hread]
  cases hexponent : t.exponent with
  | none => simp [exponentChars, value, hexponent]
  | some e => simp [exponentChars, value, hexponent, exponent?_exponentText]

/-- A written number has the rank of a decimal number that is the same but for zeros after the
digits. -/
theorem rank_value {t : PointText} {n : Nat} {e : Int} (count : Nat)
    (hdigits : Nat.ofDigitChars 10 (t.whole ++ t.part) 0 = n * Nat.pow 10 count)
    (hexponent : t.exponent.getD 0 - t.part.length = e - count) :
    t.value.rank = DecimalNumber.rank ⟨n, e⟩ := by
  rw [value, hdigits, hexponent, DecimalNumber.rank_shifted]

end PointText

namespace NumberStyle

/-- A text is that of a number with a point, which has a rank and no zero in front. -/
def WritesPoint (text : String) (rank : Nat) : Prop :=
  ∃ t : PointText, text.toList = t.chars ∧ t.IsStrict ∧ t.value.rank = rank

/-- Zeros after digits. -/
private theorem ofDigitChars_zeros (s : List Char) (count : Nat) :
    Nat.ofDigitChars 10 (s ++ List.replicate count '0') 0 =
      Nat.ofDigitChars 10 s 0 * Nat.pow 10 count := by
  rw [Nat.ofDigitChars_append, Nat.ofDigitChars_replicate_zero, Nat.mul_comm]
  rfl

variable {digits : List Char} {point : Int}

/-- A point in front of the digits, or in front of zeros in front of them. -/
private theorem placePoint_before (hdigits : AreDigits digits) (hnonempty : digits ≠ [])
    (hfrom : -3 ≤ point) (hto : point ≤ 0) :
    WritesPoint (document.placePoint digits point)
      (DecimalNumber.rank ⟨Nat.ofDigitChars 10 digits 0, point - digits.length⟩) := by
  have hfull : document.fullFrom ≤ point ∧ point ≤ document.fullTo :=
    ⟨hfrom, Int.le_trans hto (by decide)⟩
  refine ⟨⟨['0'], List.replicate point.natAbs '0' ++ digits, none,
    areDigits_zeros 1, (areDigits_zeros _).append hdigits, by simp⟩, ?_,
    ⟨isWhole_singleton (by decide), by simp [hnonempty]⟩, PointText.rank_value 0 ?_ ?_⟩
  · unfold placePoint
    rw [if_pos hfull, if_pos hto, String.toList_ofList]
    simp [PointText.chars, PointText.exponentChars]
  · rw [Nat.ofDigitChars_append, Nat.ofDigitChars_append, Nat.ofDigitChars_replicate_zero]
    exact (Nat.mul_one _).symm
  · rw [List.length_append, List.length_replicate, Option.getD_none]
    omega

/-- A point between the digits, or after them and the zeros after them. -/
private theorem placePoint_within (hdigits : AreDigits digits) (hnonempty : digits ≠ [])
    (hlead : digits.head? ≠ some '0') (hfrom : 0 < point) (hto : point ≤ 16) :
    WritesPoint (document.placePoint digits point)
      (DecimalNumber.rank ⟨Nat.ofDigitChars 10 digits 0, point - digits.length⟩) := by
  have hfull : document.fullFrom ≤ point ∧ point ≤ document.fullTo :=
    ⟨Int.le_trans (by decide) hfrom, hto⟩
  unfold placePoint
  rw [if_pos hfull, if_neg (by omega)]
  by_cases hpart : point.natAbs < digits.length
  · have hzeros : point.natAbs - digits.length = 0 := by omega
    have hdrop : (digits.drop point.natAbs).isEmpty = false := by
      simp [List.isEmpty_eq_false_iff, List.drop_eq_nil_iff, hpart]
    have htake : digits.take point.natAbs ≠ [] := by
      simp [hnonempty]
      omega
    have hfirst : (digits.take point.natAbs).head? = digits.head? := by
      rw [List.head?_take, if_neg (by omega)]
    have hwhole : AreDigits (digits.take point.natAbs) := fun c hc =>
      hdigits c (List.mem_of_mem_take hc)
    refine ⟨⟨digits.take point.natAbs, digits.drop point.natAbs, none, hwhole,
      fun c hc => hdigits c (List.mem_of_mem_drop hc), htake⟩, ?_,
      ⟨⟨hwhole, htake, fun hzero => absurd (hfirst.symm.trans hzero) hlead⟩, by simpa using hpart⟩,
      PointText.rank_value 0 ?_ ?_⟩
    · simp [PointText.chars, PointText.exponentChars, hzeros, hdrop]
    · rw [List.take_append_drop]
      exact (Nat.mul_one _).symm
    · rw [List.length_drop, Option.getD_none]
      omega
  · have hdrop : digits.drop point.natAbs = [] := by
      rw [List.drop_eq_nil_iff]
      omega
    have htake : digits.take point.natAbs = digits := by
      rw [List.take_eq_self_iff]
      omega
    have hwhole : IsWhole (digits ++ List.replicate (point.natAbs - digits.length) '0') := by
      refine ⟨hdigits.append (areDigits_zeros _), by simp [hnonempty], fun hzero => ?_⟩
      obtain ⟨first, rest, rfl⟩ := List.exists_cons_of_ne_nil hnonempty
      exact absurd hzero hlead
    refine ⟨⟨digits ++ List.replicate (point.natAbs - digits.length) '0', ['0'], none,
      hwhole.digits, areDigits_zeros 1, hwhole.nonempty⟩, ?_, ⟨hwhole, by simp⟩,
      PointText.rank_value (point.natAbs - digits.length + 1) ?_ ?_⟩
    · simp [PointText.chars, PointText.exponentChars, hdrop, htake]
    · rw [List.append_assoc, ← List.replicate_succ', ofDigitChars_zeros]
    · rw [Option.getD_none, List.length_singleton]
      omega

/-- A point after the first digit, and an exponent. -/
private theorem placePoint_exponent (hdigits : AreDigits digits) (hnonempty : digits ≠ [])
    (hout : ¬(-3 ≤ point ∧ point ≤ 16)) :
    WritesPoint (document.placePoint digits point)
      (DecimalNumber.rank ⟨Nat.ofDigitChars 10 digits 0, point - digits.length⟩) := by
  have hfull : ¬(document.fullFrom ≤ point ∧ point ≤ document.fullTo) := hout
  have htail : document.soleDigitTail = ".0" := rfl
  obtain ⟨first, rest, rfl⟩ := List.exists_cons_of_ne_nil hnonempty
  have hfirst : IsWhole [first] := isWhole_singleton (hdigits first (by simp))
  have hrest : AreDigits rest := fun c hc => hdigits c (by simp [hc])
  unfold placePoint
  rw [if_neg hfull]
  cases rest with
  | nil =>
      refine ⟨⟨[first], ['0'], some (point - 1), hfirst.digits, areDigits_zeros 1, by simp⟩, ?_,
        ⟨hfirst, by simp⟩, PointText.rank_value 1 (ofDigitChars_zeros [first] 1) ?_⟩
      · simp [PointText.chars, PointText.exponentChars, htail]
      · simp only [Option.getD_some, List.length_singleton]
        omega
  | cons second rest =>
      refine ⟨⟨[first], second :: rest, some (point - 1), hfirst.digits, hrest, by simp⟩, ?_,
        ⟨hfirst, by simp⟩, PointText.rank_value 0 (Nat.mul_one _).symm ?_⟩
      · simp [PointText.chars, PointText.exponentChars]
      · simp only [Option.getD_some, List.length_cons]
        omega

/-- Wherever the point is placed, the text is that of a decimal number of the same rank. -/
theorem placePoint_eq (hdigits : AreDigits digits) (hnonempty : digits ≠ [])
    (hlead : digits.head? ≠ some '0') (point : Int) :
    WritesPoint (document.placePoint digits point)
      (DecimalNumber.rank ⟨Nat.ofDigitChars 10 digits 0, point - digits.length⟩) := by
  by_cases hfull : -3 ≤ point ∧ point ≤ 16
  · by_cases hbefore : point ≤ 0
    · exact placePoint_before hdigits hnonempty hfull.1 hbefore
    · exact placePoint_within hdigits hnonempty hlead (by omega) hfull.2
  · exact placePoint_exponent hdigits hnonempty hfull

theorem placePoint_number {d : DecimalNumber} (hzero : d.digits ≠ 0) :
    WritesPoint (document.placePoint (Nat.toDigits 10 d.digits)
      ((Nat.toDigits 10 d.digits).length + d.exponent)) d.rank := by
  have hlead : (Nat.toDigits 10 d.digits).head? ≠ some '0' := by
    obtain ⟨c, rest, hdigits, hc⟩ := exists_toDigits hzero
    rw [hdigits]
    exact fun hhead => hc (Option.some.inj hhead)
  have hwrites := placePoint_eq (areDigits_toDigits d.digits) Nat.toDigits_ne_nil hlead
    ((Nat.toDigits 10 d.digits).length + d.exponent)
  have hexponent : ((Nat.toDigits 10 d.digits).length : Int) + d.exponent -
      (Nat.toDigits 10 d.digits).length = d.exponent := by omega
  rwa [hexponent, Nat.ofDigitChars_ten_toDigits] at hwrites

theorem shortest_ne_zero {rank : Nat} (h : rank ≠ 0) : (Binary64.shortest rank).digits ≠ 0 :=
  fun hzero =>
    h ((Binary64.rank_shortest h).symm.trans (DecimalNumber.rank_of_small (Or.inl hzero)))

/-- The text of a magnitude is that of a decimal number with its rank, and has no zero in front. -/
theorem magnitude_eq (rank : Nat) : WritesPoint (document.magnitude rank) rank := by
  unfold magnitude
  by_cases hzero : rank = 0
  · rw [if_pos hzero, hzero]
    exact ⟨⟨['0'], ['0'], none, areDigits_zeros 1, areDigits_zeros 1, by simp⟩, rfl,
      ⟨isWhole_singleton (by decide), by simp⟩, DecimalNumber.rank_of_small (Or.inl rfl)⟩
  · rw [if_neg hzero]
    have hwrites := placePoint_number (shortest_ne_zero hzero)
    rwa [Binary64.rank_shortest hzero] at hwrites

end NumberStyle

end FunctionPipeline

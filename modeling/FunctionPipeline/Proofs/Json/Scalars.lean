import FunctionPipeline.Json.Reader
import FunctionPipeline.Json.Writer
import FunctionPipeline.Proofs.Decimal.PointText
import FunctionPipeline.Proofs.Text.Hex
import FunctionPipeline.Proofs.Text.Octets
import FunctionPipeline.Text.Encoding
import Mathlib.Data.List.Basic

/-!
String literals and numbers in JSON text. Each character of a text is written as itself or as an
escape of its code units, and the reader puts the units together to the same text. An integer is its
digits; a double is the shortest decimal number of its rank, with a point or an exponent or both.
The reader takes as much of a text as can be a number, so what follows must not go on with it.
-/

namespace FunctionPipeline.Json

/-- In front of whatever follows, characters of a literal are read as code units. -/
def Spells (chars : List Char) (units : List Nat) : Prop :=
  ∀ rest, stringUnits? (chars ++ rest) =
    (stringUnits? rest).map fun found => (units ++ found.1, found.2)

theorem spells_nil : Spells [] [] := by
  intro rest
  cases hrest : stringUnits? rest <;> simp [hrest]

theorem Spells.append {chars more : List Char} {units others : List Nat} (h : Spells chars units)
    (hmore : Spells more others) : Spells (chars ++ more) (units ++ others) := by
  intro rest
  rw [List.append_assoc, h, hmore, Option.map_map]
  simp only [Function.comp_def, List.append_assoc]

theorem spells_plain {c : Char} (hquote : c ≠ '"') (hslash : c ≠ '\\') (hlow : 32 ≤ c.toNat) :
    Spells [c] [c.toNat] := by
  intro rest
  rw [List.singleton_append, stringUnits?.eq_5 c rest hquote (fun _ _ _ _ _ heq => (hslash heq).elim)
    (fun _ _ heq => (hslash heq).elim), if_neg (Nat.not_lt.mpr hlow)]
  cases stringUnits? rest <;> rfl

/-- A letter after a backslash, which is not the one that asks for hexadecimal digits. -/
theorem spells_letter {letter c : Char} (hletter : escapedChar? letter = some c) :
    Spells ['\\', letter] [c.toNat] := by
  intro rest
  have hne : letter ≠ 'u' := by
    rintro rfl
    cases hletter
  rw [List.cons_append, List.singleton_append,
    stringUnits?.eq_4 letter rest (fun _ _ _ _ _ heq => (hne heq).elim), hletter]
  cases stringUnits? rest <;> rfl

theorem spells_unit {n : Nat} (h : n < 0x10000) : Spells (unitEscape n) [n] := by
  intro rest
  have hlength : (hexDigits 4 n).length = 4 := length_hexDigits (by decide) h
  have hnumber := hexNumber?_lower 4 n
  rw [unitEscape]
  generalize hexDigits 4 n = digits at hlength hnumber
  obtain ⟨a, b, c, d, rfl⟩ : ∃ a b c d, digits = [a, b, c, d] := List.length_eq_four.mp hlength
  simp only [List.cons_append, List.nil_append, stringUnits?, hnumber]
  cases stringUnits? rest <;> rfl

/-- A character is written as what is read as its code units. -/
theorem spells_writtenChar (c : Char) : Spells (writtenChar c) (Encoding.units16 c) := by
  have hlow (h : c.toNat < 0x10000) : Encoding.units16 c = [c.toNat] := if_pos h
  unfold writtenChar
  -- The seven characters with an escape of one letter.
  iterate 7
    split
    next h =>
      subst h
      exact spells_letter rfl
  next hquote hslash _ _ _ _ _ =>
    split
    next hprintable =>
      rw [hlow (by omega)]
      exact spells_plain hquote hslash hprintable.1
    next =>
      split
      next h =>
        rw [hlow h]
        exact spells_unit h
      next h =>
        have hbound := Utf8.toNat_lt c
        rw [Encoding.units16, if_neg h]
        exact (spells_unit (by omega)).append (spells_unit (by omega))

theorem spells_text (s : List Char) :
    Spells (s.flatMap writtenChar) (s.flatMap Encoding.units16) := by
  induction s with
  | nil => exact spells_nil
  | cons c s ih => exact (spells_writtenChar c).append ih

theorem joinUnits_units16 (c : Char) (units : List Nat) :
    joinUnits (Encoding.units16 c ++ units) = c :: joinUnits units := by
  have hvalid : c.toNat.isValidChar := c.valid
  unfold Encoding.units16
  split
  next =>
    have hsurrogate : ¬ (0xD800 ≤ c.toNat ∧ c.toNat < 0xDC00) := by
      rcases hvalid with hbelow | ⟨habove, -⟩ <;> omega
    cases units with
    | nil => simp only [List.append_nil, joinUnits, if_pos hvalid, Char.ofNat_toNat]
    | cons unit units =>
        have hpair : ¬ (0xD800 ≤ c.toNat ∧ c.toNat < 0xDC00 ∧ 0xDC00 ≤ unit ∧ unit < 0xE000) :=
          fun h => hsurrogate ⟨h.1, h.2.1⟩
        rw [List.singleton_append, joinUnits, if_neg hpair, if_pos hvalid, Char.ofNat_toNat]
  next h =>
    have hbound := Utf8.toNat_lt c
    have hpair : 0xD800 ≤ 0xD800 + (c.toNat - 0x10000) / 0x400 ∧
        0xD800 + (c.toNat - 0x10000) / 0x400 < 0xDC00 ∧
        0xDC00 ≤ 0xDC00 + (c.toNat - 0x10000) % 0x400 ∧
        0xDC00 + (c.toNat - 0x10000) % 0x400 < 0xE000 := by omega
    have hpoint : 0x10000 + (0xD800 + (c.toNat - 0x10000) / 0x400 - 0xD800) * 0x400 +
        (0xDC00 + (c.toNat - 0x10000) % 0x400 - 0xDC00) = c.toNat := by omega
    simp only [List.cons_append, List.nil_append]
    rw [joinUnits, if_pos hpair, hpoint, Char.ofNat_toNat]

/-- The code units of a text make up that text. -/
theorem joinUnits_text (s : List Char) : joinUnits (s.flatMap Encoding.units16) = s := by
  induction s with
  | nil => rfl
  | cons c s ih => rw [List.flatMap_cons, joinUnits_units16, ih]

/-- A string literal is read back up to its closing quote. -/
theorem string?_stringLiteral (s : String) (rest : List Char) :
    ∃ body, (stringLiteral s).toList ++ rest = '"' :: body ∧ string? body = some (s, rest) := by
  refine ⟨s.toList.flatMap writtenChar ++ ('"' :: rest), ?_, ?_⟩
  · simp [stringLiteral]
  · have hclose : stringUnits? ('"' :: rest) = some ([], rest) := rfl
    rw [string?, spells_text, hclose]
    simp only [Option.map_some, List.append_nil, joinUnits_text, String.ofList_toList]

end FunctionPipeline.Json

namespace FunctionPipeline

namespace NumberStyle

/-- Only a single digit before an exponent is written otherwise than in documents, without a point
behind it. -/
theorem placePoint_json (digits : List Char) (point : Int) :
    json.placePoint digits point = document.placePoint digits point ∨
      ∃ d, digits = [d] ∧ (json.placePoint digits point).toList =
        d :: PointText.exponentChars (some (point - 1)) := by
  by_cases hfull : document.fullFrom ≤ point ∧ point ≤ document.fullTo
  · left
    have hjson : json.fullFrom ≤ point ∧ point ≤ json.fullTo := hfull
    unfold placePoint
    rw [if_pos hjson, if_pos hfull]
  · have hjson : ¬ (json.fullFrom ≤ point ∧ point ≤ json.fullTo) := hfull
    match digits with
    | [] =>
        left
        unfold placePoint
        rw [if_neg hjson, if_neg hfull]
    | [d] =>
        right
        refine ⟨d, rfl, ?_⟩
        have htail : json.soleDigitTail = "" := rfl
        unfold placePoint
        rw [if_neg hjson]
        simp [PointText.exponentChars, htail]
    | first :: second :: rest =>
        left
        unfold placePoint
        rw [if_neg hjson, if_neg hfull]
        rfl

/-- A text of a rank: it has a point, or is a digit with an exponent. -/
def Writes (text : String) (rank : Nat) : Prop :=
  (∃ t : PointText, text.toList = t.chars ∧ t.IsStrict ∧ t.value.rank = rank) ∨
    ∃ d e, d.isDigit = true ∧ text.toList = d :: PointText.exponentChars (some e) ∧
      DecimalNumber.rank ⟨Nat.ofDigitChars 10 [d] 0, e⟩ = rank

theorem Writes.exists_head {text : String} {rank : Nat} (h : Writes text rank) :
    ∃ d rest, text.toList = d :: rest ∧ d.isDigit = true := by
  rcases h with ⟨t, htext, -⟩ | ⟨d, e, hd, htext, -⟩
  · rw [htext]
    exact t.exists_head
  · exact ⟨d, _, htext, hd⟩

theorem writes_number {number : DecimalNumber} (hzero : number.digits ≠ 0) :
    Writes (json.placePoint (Nat.toDigits 10 number.digits)
      ((Nat.toDigits 10 number.digits).length + number.exponent)) number.rank := by
  rcases placePoint_json (Nat.toDigits 10 number.digits)
    ((Nat.toDigits 10 number.digits).length + number.exponent) with heq | ⟨d, hdigits, heq⟩
  · left
    rw [heq]
    exact placePoint_number hzero
  · right
    have hd := areDigits_toDigits number.digits d (by simp [hdigits])
    have hvalue := Nat.ofDigitChars_ten_toDigits (n := number.digits)
    have hexponent : (([d].length : Nat) : Int) + number.exponent - 1 = number.exponent := by
      rw [List.length_singleton]
      omega
    refine ⟨d, number.exponent, hd, ?_, ?_⟩
    · rw [heq, hdigits, hexponent]
    · rw [← hdigits, hvalue]

theorem writes_magnitude (rank : Nat) : Writes (json.magnitude rank) rank := by
  unfold magnitude
  by_cases hzero : rank = 0
  · rw [if_pos hzero, hzero]
    exact Or.inl (magnitude_eq 0)
  · rw [if_neg hzero]
    have hwrites := writes_number (shortest_ne_zero hzero)
    rwa [Binary64.rank_shortest hzero] at hwrites

end NumberStyle

namespace Json

theorem decimalNumber_eq (s : List Char) : decimalNumber s = Nat.ofDigitChars 10 s 0 := by
  have hfold (n : Nat) :
      s.foldl (fun n c => n * 10 + (c.toNat - 48)) n = Nat.ofDigitChars 10 s n := by
    induction s generalizing n with
    | nil => rfl
    | cons c s ih =>
        rw [List.foldl_cons, ih, Nat.ofDigitChars_cons, Nat.mul_comm]
        rfl
  exact hfold 0

/-- No number goes on in a text. -/
def Stops (rest : List Char) : Prop := ∀ c ∈ rest.head?, c.isDigit = false ∧ c ∉ ['.', 'e', 'E']

section Reading

variable {rest : List Char}

theorem stops_cons {c : Char} (h : c ∈ [',', ']', '\x7d']) : Stops (c :: rest) := by
  have hall : ∀ c ∈ [',', ']', '\x7d'], decide (c.isDigit = false ∧ c ∉ ['.', 'e', 'E']) = true :=
    List.all_eq_true.mp (by decide)
  intro d hd
  cases hd
  exact of_decide_eq_true (hall c h)

theorem Stops.digit (h : Stops rest) : (rest.head?.map Char.isDigit).getD false = false := by
  cases rest with
  | nil => rfl
  | cons c rest => exact (h c rfl).1

theorem Stops.fraction? (h : Stops rest) : fraction? rest = none := by
  cases rest with
  | nil => rfl
  | cons c rest =>
      unfold Json.fraction?
      split
      next heq =>
        cases heq
        exact absurd (h '.' rfl).2 (by decide)
      next => rfl

theorem Stops.exponent? (h : Stops rest) : exponent? rest = none := by
  cases rest with
  | nil => rfl
  | cons c rest =>
      have hc := (h c rfl).2
      have hletter : ¬ (c = 'e' ∨ c = 'E') := by
        rintro (rfl | rfl) <;> simp at hc
      simp only [Json.exponent?, if_neg hletter]

/-- Without a zero in front of them, digits are read to their end. -/
theorem wholePart_eq {whole : List Char} (hwhole : IsWhole whole)
    (hrest : (rest.head?.map Char.isDigit).getD false = false) :
    (match digitsOf (whole ++ rest) with
      | ('0' :: _, _) => (['0'], (whole ++ rest).drop 1)
      | found => found) = (whole, rest) := by
  have hspan : digitsOf (whole ++ rest) = (whole, rest) :=
    Numeral.span_digits hwhole.digits hrest
  rw [hspan]
  split
  next heq =>
    obtain ⟨hzero, -⟩ := Prod.mk.inj heq
    have hsingle := hwhole.lead (by rw [hzero]; rfl)
    rw [hsingle]
    rfl
  next => rfl

theorem fraction?_part {part : List Char} (hpart : AreDigits part) (hnonempty : part ≠ [])
    (hrest : (rest.head?.map Char.isDigit).getD false = false) :
    fraction? ('.' :: (part ++ rest)) = some (part, rest) := by
  have hspan : digitsOf (part ++ rest) = (part, rest) := Numeral.span_digits hpart hrest
  obtain ⟨d, more, rfl⟩ := List.exists_cons_of_ne_nil hnonempty
  rw [fraction?, hspan]

theorem exponent?_exponentChars (e : Int) (h : Stops rest) :
    exponent? (PointText.exponentChars (some e) ++ rest) = some (e, rest) := by
  obtain ⟨digits, htext, hdigits, hnonempty, hvalue⟩ := PointText.toList_exponentText e
  have hspan : digitsOf (digits ++ rest) = (digits, rest) := Numeral.span_digits hdigits h.digit
  obtain ⟨d, more, rfl⟩ := List.exists_cons_of_ne_nil hnonempty
  rw [PointText.exponentChars, htext]
  by_cases hneg : e < 0
  · have hint : -(e.natAbs : Int) = e := by omega
    rw [if_pos hneg, List.cons_append, List.cons_append]
    simp only [exponent?, true_or, if_true, hspan, decimalNumber_eq, hvalue, hint]
  · have hint : (e.natAbs : Int) = e := by omega
    rw [if_neg hneg, List.cons_append, List.cons_append]
    simp only [exponent?, true_or, if_true, hspan, decimalNumber_eq, hvalue, Bool.false_eq_true,
      if_false, hint]

section Whole

variable {whole : List Char} (hwhole : IsWhole whole) (h : Stops rest) (negative : Bool)

include hwhole h

theorem number_int (hlength : whole.length ≤ digitLimit) :
    number negative (whole ++ rest) =
      .ok (.int (if negative then -(Nat.ofDigitChars 10 whole 0 : Int)
        else Nat.ofDigitChars 10 whole 0), rest) := by
  have hempty : whole.isEmpty = false := by simp [hwhole.nonempty]
  unfold number
  split
  next heq =>
    obtain ⟨rfl, rfl⟩ := Prod.mk.inj (heq.symm.trans (wholePart_eq hwhole h.digit))
    simp only [hempty, Bool.false_eq_true, if_false, h.fraction?, h.exponent?,
      Nat.not_lt.mpr hlength, decimalNumber_eq]

theorem number_exponent (e : Int) :
    number negative (whole ++ (PointText.exponentChars (some e) ++ rest)) =
      .ok (.float (.ofDecimal negative (Nat.ofDigitChars 10 whole 0) e), rest) := by
  have hempty : whole.isEmpty = false := by simp [hwhole.nonempty]
  have hexponent := exponent?_exponentChars e h
  have hfraction : fraction? (PointText.exponentChars (some e) ++ rest) = none := rfl
  unfold number
  split
  next heq =>
    obtain ⟨rfl, rfl⟩ := Prod.mk.inj (heq.symm.trans (wholePart_eq hwhole rfl))
    simp only [hempty, Bool.false_eq_true, if_false, hfraction, hexponent, decimalNumber_eq]

end Whole

theorem number_point {t : PointText} (hstrict : t.IsStrict) (h : Stops rest) (negative : Bool) :
    number negative (t.chars ++ rest) =
      .ok (.float (.ofDecimal negative t.value.digits t.value.exponent), rest) := by
  have hempty : t.whole.isEmpty = false := by simp [t.whole_nonempty]
  rw [PointText.chars, List.append_assoc, List.cons_append, List.append_assoc]
  unfold number
  split
  next heq =>
    obtain ⟨rfl, rfl⟩ := Prod.mk.inj (heq.symm.trans (wholePart_eq hstrict.whole rfl))
    cases hexponent : t.exponent with
    | none =>
        have hnothing : PointText.exponentChars none ++ rest = rest := rfl
        simp only [hempty, Bool.false_eq_true, if_false, hnothing,
          fraction?_part t.part_digits hstrict.part h.digit, h.exponent?, decimalNumber_eq,
          PointText.value, hexponent, Option.getD_none, Int.zero_sub]
    | some e =>
        have hafter : ((PointText.exponentChars (some e) ++ rest).head?.map Char.isDigit).getD
            false = false := rfl
        simp only [hempty, Bool.false_eq_true, if_false,
          fraction?_part t.part_digits hstrict.part hafter, exponent?_exponentChars e h,
          decimalNumber_eq, PointText.value, hexponent, Option.getD_some]

/-- No word for a value begins with a digit, with a sign in front of it or not. -/
theorem scalar_signed {d : Char} (hd : d.isDigit = true) (negative : Bool) :
    scalar ((if negative then ['-'] else []) ++ d :: rest) = number negative (d :: rest) := by
  have hne {c : Char} (hc : c.isDigit = false) : c ≠ d := by
    rintro rfl
    rw [hd] at hc
    cases hc
  cases negative with
  | false =>
      rw [if_neg Bool.false_ne_true, List.nil_append, scalar, List.findSome?_eq_none_iff.mpr]
      · simp [words, afterWord?, hne]
      · have hminus : '-' ≠ d := hne (by decide)
        exact fun _ heq => hminus (List.cons.inj heq).1.symm
  | true =>
      rw [if_pos rfl, List.cons_append, List.nil_append, scalar, List.findSome?_eq_none_iff.mpr]
      simp [words, afterWord?, hne]

/-- An integer with few enough digits is read back. -/
theorem scalar_int {i : Int} (hshort : isLongInteger i = false) (h : Stops rest) :
    scalar ((toString i).toList ++ rest) = .ok (.int i, rest) := by
  have hwhole := isWhole_toDigits i.natAbs
  have hlength : (Nat.toDigits 10 i.natAbs).length ≤ digitLimit :=
    length_toDigits_le (by decide) hshort
  have hnumber := number_int hwhole h (decide (i < 0)) hlength
  rw [Nat.ofDigitChars_ten_toDigits, signed_natAbs] at hnumber
  have htext : (toString i).toList =
      (if decide (i < 0) then ['-'] else []) ++ Nat.toDigits 10 i.natAbs := by
    rw [toList_toString]
    by_cases hneg : i < 0 <;> simp [hneg]
  obtain ⟨d, more, hdigits⟩ := List.exists_cons_of_ne_nil hwhole.nonempty
  have hd := hwhole.digits d (by simp [hdigits])
  rw [hdigits, List.cons_append] at hnumber
  rw [htext, hdigits, List.append_assoc, List.cons_append, scalar_signed hd, hnumber]

theorem number_magnitude (negative : Bool) (rank : Fin Binary64.rankCount) (h : Stops rest) :
    number negative ((NumberStyle.json.magnitude rank).toList ++ rest) =
      .ok (.float (.finite negative rank), rest) := by
  have hrank : Binary64.ofRank negative rank = .finite negative rank := by
    rw [Binary64.ofRank, dif_pos rank.isLt]
  rcases NumberStyle.writes_magnitude rank with ⟨t, htext, hstrict, hvalue⟩ |
    ⟨d, e, hd, htext, hvalue⟩
  · rw [htext, number_point hstrict h, DecimalNumber.ofDecimal_eq, hvalue, hrank]
  · have hnumber := number_exponent (isWhole_singleton hd) h negative e
    rw [DecimalNumber.ofDecimal_eq negative ⟨_, e⟩, hvalue, hrank] at hnumber
    rw [htext]
    exact hnumber

/-- A finite double is read back. -/
theorem scalar_float (negative : Bool) (rank : Fin Binary64.rankCount) (h : Stops rest) :
    scalar ((NumberStyle.json.text (.finite negative rank)).toList ++ rest) =
      .ok (.float (.finite negative rank), rest) := by
  have htext : (NumberStyle.json.text (.finite negative rank)).toList =
      (if negative then ['-'] else []) ++ (NumberStyle.json.magnitude rank).toList := by
    rw [NumberStyle.text, String.toList_append]
    cases negative <;> rfl
  have hnumber := number_magnitude negative rank h
  obtain ⟨d, more, hdigits, hd⟩ := (NumberStyle.writes_magnitude rank).exists_head
  rw [hdigits, List.cons_append] at hnumber
  rw [htext, hdigits, List.append_assoc, List.cons_append, scalar_signed hd, hnumber]

end Reading

end Json

end FunctionPipeline

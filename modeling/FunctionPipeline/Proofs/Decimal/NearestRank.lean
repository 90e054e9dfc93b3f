import FunctionPipeline.Decimal.Binary64

/-!
Rounding to the nearest rank. A ratio closer to a rank's magnitude than one part in twice ten to the
16th is rounded to that rank, ratios of one value are rounded to one rank, and ratios too small or
too large are rounded to nothing or to no finite double.
-/

namespace FunctionPipeline.Binary64

variable {num den rank : Nat}

/-- A rank is what rounding makes of a significand and its scale. -/
theorem scale_mul_add_significand (rank : Nat) :
    scale rank * perBinade + significand rank = rank := by
  unfold scale significand perBinade
  split <;> omega

theorem significand_lt (rank : Nat) : significand rank < 2 * perBinade := by
  unfold significand perBinade
  split <;> omega

/-- Only at the least scale does a significand have fewer than 53 bits. -/
theorem scale_eq_zero_or (rank : Nat) : scale rank = 0 ∨ perBinade ≤ significand rank := by
  unfold scale significand perBinade
  split <;> omega

theorem units_pos (h : rank ≠ 0) : 0 < units rank := by
  have hsignificand : 0 < significand rank := by
    unfold significand perBinade
    split <;> omega
  exact Nat.mul_pos hsignificand (Nat.pow_pos (by decide))

/-- Less than a half away from a whole number. -/
theorem divideToEven_eq {quotient : Nat} (hlower : 2 * (quotient * den) < 2 * num + den)
    (hupper : 2 * num < 2 * (quotient * den) + den) : divideToEven num den = quotient := by
  have hdiv : num / den * den + num % den = num := by
    rw [Nat.mul_comm]
    exact Nat.div_add_mod num den
  by_cases hless : num < quotient * den
  · obtain ⟨q, rfl⟩ : ∃ q, quotient = q + 1 := by
      cases quotient with
      | zero => omega
      | succ q => exact ⟨q, rfl⟩
    have hsucc : (q + 1) * den = q * den + den := Nat.succ_mul q den
    have hquotient : num / den = q := Nat.div_eq_of_lt_le (by omega) hless
    rw [hquotient] at hdiv
    simp only [divideToEven, hquotient]
    rw [if_neg (by omega), if_pos (by omega)]
  · have hsucc : (quotient + 1) * den = quotient * den + den := Nat.succ_mul quotient den
    have hquotient : num / den = quotient := Nat.div_eq_of_lt_le (by omega) (by omega)
    rw [hquotient] at hdiv
    simp only [divideToEven, hquotient]
    rw [if_pos (by omega)]

theorem le_divideToEven (num den : Nat) : num / den ≤ divideToEven num den := by
  simp only [divideToEven]
  split
  · exact Nat.le_refl _
  · split <;> omega

theorem divideToEven_mul (num den : Nat) {factor : Nat} (h : 0 < factor) :
    divideToEven (num * factor) (den * factor) = divideToEven num den := by
  have hrest : 2 * (num % den * factor) = 2 * (num % den) * factor := (Nat.mul_assoc ..).symm
  simp only [divideToEven, Nat.mul_div_mul_right _ _ h, Nat.mul_mod_mul_right, hrest,
    Nat.mul_lt_mul_right h, gt_iff_lt]

/-- The shift of a ratio between the powers of two that bound significands of 53 bits. -/
theorem binade_eq {shift : Nat} (hden : 0 < den)
    (hlower : shift = 0 ∨ perBinade * (den * Nat.pow 2 shift) ≤ num * unit)
    (hupper : num * unit < 2 * perBinade * (den * Nat.pow 2 shift)) : binade num den = shift := by
  have hpower (count : Nat) :
      Nat.pow 2 (count + shift) * den = Nat.pow 2 count * (den * Nat.pow 2 shift) := by
    rw [show Nat.pow 2 (count + shift) = Nat.pow 2 count * Nat.pow 2 shift from
      Nat.pow_add 2 count shift, Nat.mul_assoc, Nat.mul_comm _ den]
  have hless : num * unit / den < Nat.pow 2 (53 + shift) := by
    rw [Nat.div_lt_iff_lt_mul hden, hpower]
    exact hupper
  have hmore : shift = 0 ∨ Nat.pow 2 (52 + shift) ≤ num * unit / den := by
    rw [Nat.le_div_iff_mul_le hden, hpower]
    exact hlower
  unfold binade
  simp only
  generalize num * unit / den = scaled at hless hmore
  by_cases hzero : scaled = 0
  · subst hzero
    have hpos : 0 < Nat.pow 2 (52 + shift) := Nat.pow_pos (by decide)
    rcases hmore with rfl | hmore
    · rfl
    · omega
  · have hlog : scaled.log2 < 53 + shift := (Nat.log2_lt hzero).mpr hless
    rcases hmore with rfl | hmore
    · omega
    · have hle : 52 + shift ≤ scaled.log2 := (Nat.le_log2 hzero).mpr hmore
      omega

theorem nearestRank_eq {shift quotient : Nat} (hden : 0 < den)
    (hlower : shift = 0 ∨ perBinade * (den * Nat.pow 2 shift) ≤ num * unit)
    (hupper : num * unit < 2 * perBinade * (den * Nat.pow 2 shift))
    (hbelow : 2 * (quotient * (den * Nat.pow 2 shift)) < 2 * (num * unit) + den * Nat.pow 2 shift)
    (habove : 2 * (num * unit) < 2 * (quotient * (den * Nat.pow 2 shift)) + den * Nat.pow 2 shift) :
    nearestRank num den = shift * perBinade + quotient := by
  simp only [nearestRank, binade_eq hden hlower hupper, divideToEven_eq hbelow habove]

/-- A ratio as near to a rank's magnitude as one part in twice ten to the 16th has that rank. -/
theorem nearestRank_of_near (hden : 0 < den)
    (hbelow : 19999999999999999 * (units rank * den) ≤ 20000000000000000 * (num * unit))
    (habove : 20000000000000000 * (num * unit) ≤ 20000000000000001 * (units rank * den)) :
    nearestRank num den = rank := by
  have hrank := scale_mul_add_significand rank
  have hunits : units rank * den = significand rank * (den * Nat.pow 2 (scale rank)) := by
    rw [units, Nat.mul_assoc, Nat.mul_comm den]
  have hstep : 0 < den * Nat.pow 2 (scale rank) := Nat.mul_pos hden (Nat.pow_pos (by decide))
  have hless : (significand rank + 1) * (den * Nat.pow 2 (scale rank)) ≤
      2 * perBinade * (den * Nat.pow 2 (scale rank)) :=
    Nat.mul_le_mul_right _ (significand_lt rank)
  have hmore : scale rank = 0 ∨ perBinade * (den * Nat.pow 2 (scale rank)) ≤
      significand rank * (den * Nat.pow 2 (scale rank)) :=
    (scale_eq_zero_or rank).imp id (Nat.mul_le_mul_right _)
  rw [hunits] at hbelow habove
  rw [Nat.succ_mul] at hless
  have hupper : num * unit < 2 * perBinade * (den * Nat.pow 2 (scale rank)) := by
    unfold perBinade at hless ⊢
    omega
  by_cases hsame : scale rank = 0 ∨ perBinade * (den * Nat.pow 2 (scale rank)) ≤ num * unit
  · unfold perBinade at hless
    rw [@nearestRank_eq num den (scale rank) (significand rank) hden hsame hupper (by omega)
      (by omega), hrank]
  · -- just below a power of two the ratio is in the binade before, and rounded up to its end
    obtain ⟨hscale, hlower⟩ := not_or.mp hsame
    obtain ⟨shift, hshift⟩ := Nat.exists_eq_succ_of_ne_zero hscale
    have hdouble : den * Nat.pow 2 (scale rank) = 2 * (den * Nat.pow 2 shift) := by
      rw [hshift, show Nat.pow 2 (shift + 1) = Nat.pow 2 shift * 2 from rfl, ← Nat.mul_assoc,
        Nat.mul_comm _ 2]
    have hleast : significand rank = perBinade := by
      by_cases hmany : perBinade + 1 ≤ significand rank
      · have hbeyond := Nat.mul_le_mul_right (den * Nat.pow 2 (scale rank)) hmany
        unfold perBinade at hbeyond hlower
        omega
      · have hlarge := scale_eq_zero_or rank
        omega
    rw [hleast, hdouble] at hbelow
    rw [hdouble] at hlower
    rw [hleast, hshift, Nat.succ_mul] at hrank
    unfold perBinade at hbelow hlower
    have hnear : nearestRank num den = shift * perBinade + 2 * perBinade := by
      refine nearestRank_eq hden (Or.inr ?_) ?_ ?_ ?_
      all_goals
        unfold perBinade
        omega
    omega

theorem nearestRank_mul (num den : Nat) {factor : Nat} (h : 0 < factor) :
    nearestRank (num * factor) (den * factor) = nearestRank num den := by
  have hvalue : num * factor * unit = num * unit * factor := Nat.mul_right_comm ..
  have hbinade : binade (num * factor) (den * factor) = binade num den := by
    simp only [binade, hvalue, Nat.mul_div_mul_right _ _ h]
  simp only [nearestRank, hbinade, hvalue, Nat.mul_right_comm den factor, divideToEven_mul _ _ h]

/-- Ratios of one value have one rank. -/
theorem nearestRank_congr {num' den' : Nat} (hden : 0 < den) (hden' : 0 < den')
    (h : num * den' = num' * den) : nearestRank num den = nearestRank num' den' := by
  calc nearestRank num den = nearestRank (num * den') (den * den') :=
        (nearestRank_mul num den hden').symm
    _ = nearestRank (num' * den) (den' * den) := by rw [h, Nat.mul_comm den]
    _ = nearestRank num' den' := nearestRank_mul num' den' hden

/-- Less than half of the least magnitude is nothing. -/
theorem nearestRank_of_small (h : 2 * (num * unit) < den) : nearestRank num den = 0 := by
  have hden : 0 < den := by omega
  have hpower : den * Nat.pow 2 0 = den := Nat.mul_one den
  have hupper : num * unit < 2 * perBinade * (den * Nat.pow 2 0) := by
    unfold perBinade
    omega
  have hrank : nearestRank num den = 0 * perBinade + 0 :=
    nearestRank_eq hden (Or.inl rfl) hupper (by omega) (by omega)
  omega

/-- The least rank from a power of two on. -/
theorem le_nearestRank {shift : Nat} (hden : 0 < den)
    (h : Nat.pow 2 (52 + shift) * den ≤ num * unit) :
    (shift + 1) * perBinade ≤ nearestRank num den := by
  have hpower (count : Nat) : 0 < Nat.pow 2 count := Nat.pow_pos (by decide)
  have hscaled : Nat.pow 2 (52 + shift) ≤ num * unit / den :=
    (Nat.le_div_iff_mul_le hden).mpr h
  have hnonzero : num * unit / den ≠ 0 := by
    have hpos := hpower (52 + shift)
    omega
  have hlog : 52 + shift ≤ (num * unit / den).log2 := (Nat.le_log2 hnonzero).mpr hscaled
  have hbinade : (num * unit / den).log2 = 52 + binade num den := by
    simp only [binade]
    omega
  have hmany : perBinade ≤ num * unit / (den * Nat.pow 2 (binade num den)) := by
    have hleast : Nat.pow 2 (52 + binade num den) ≤ num * unit / den := by
      rw [← hbinade]
      exact Nat.log2_self_le hnonzero
    rw [show Nat.pow 2 (52 + binade num den) = perBinade * Nat.pow 2 (binade num den) from
      Nat.pow_add 2 52 _] at hleast
    rw [← Nat.div_div_eq_div_mul]
    exact (Nat.le_div_iff_mul_le (hpower _)).mpr hleast
  have hshift : shift * perBinade ≤ binade num den * perBinade :=
    Nat.mul_le_mul_right _ (by omega)
  have hround := le_divideToEven (num * unit) (den * Nat.pow 2 (binade num den))
  calc (shift + 1) * perBinade = shift * perBinade + perBinade := Nat.succ_mul ..
    _ ≤ nearestRank num den := Nat.add_le_add hshift (Nat.le_trans hmany hround)

end FunctionPipeline.Binary64

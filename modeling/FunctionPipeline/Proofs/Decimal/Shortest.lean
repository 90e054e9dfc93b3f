import FunctionPipeline.Decimal.Shortest
import FunctionPipeline.Proofs.Decimal.NearestRank

/-!
Decimal numbers and the ranks that they are read as. Reading is rounding: the bounds beyond which no
power is computed change nothing, and moving the point changes nothing. The shortest decimal number
of a rank is read as that rank, since 17 digits always suffice.
-/

namespace FunctionPipeline

namespace DecimalNumber

open Binary64

theorem ratio_eq (d : DecimalNumber) :
    d.ratio = (d.digits * Nat.pow 10 d.exponent.toNat, Nat.pow 10 (-d.exponent).toNat) := by
  unfold ratio
  split
  · rw [show d.exponent.toNat = 0 by omega, show d.exponent.natAbs = (-d.exponent).toNat by omega]
    exact Prod.ext (Nat.mul_one _).symm rfl
  · rw [show (-d.exponent).toNat = 0 by omega, show d.exponent.natAbs = d.exponent.toNat by omega]

def rank (d : DecimalNumber) : Nat := nearestRank d.ratio.1 d.ratio.2

theorem rank_eq (d : DecimalNumber) :
    d.rank = nearestRank (d.digits * Nat.pow 10 d.exponent.toNat)
      (Nat.pow 10 (-d.exponent).toNat) := by
  rw [rank, ratio_eq]

private theorem pow_ten_pos (count : Nat) : 0 < Nat.pow 10 count := Nat.pow_pos (by decide)

private theorem pow_ten_add (a b : Nat) : Nat.pow 10 (a + b) = Nat.pow 10 a * Nat.pow 10 b :=
  Nat.pow_add 10 a b

/-- A point moved to the left makes up for as many zeros more. -/
theorem rank_shifted (digits count : Nat) (exponent : Int) :
    rank ⟨digits * Nat.pow 10 count, exponent - count⟩ = rank ⟨digits, exponent⟩ := by
  rw [rank_eq, rank_eq]
  apply nearestRank_congr (pow_ten_pos _) (pow_ten_pos _)
  simp only [Nat.mul_assoc, ← pow_ten_add]
  congr 2
  omega

theorem lt_pow_digitCount (n : Nat) : n < Nat.pow 10 (digitCount n) :=
  (Nat.length_toDigits_le_iff (by decide) Nat.length_toDigits_pos).mp (Nat.le_refl _)

theorem pow_digitCount_le {n : Nat} (h : n ≠ 0) : Nat.pow 10 (digitCount n - 1) ≤ n := by
  by_cases hsingle : digitCount n - 1 = 0
  · rw [hsingle]
    exact Nat.one_le_iff_ne_zero.mpr h
  · apply Nat.le_of_not_lt
    intro hless
    have hle : digitCount n ≤ digitCount n - 1 :=
      (Nat.length_toDigits_le_iff (by decide) (by omega)).mpr hless
    omega

private theorem pow_ten_le {a b : Nat} (h : a ≤ b) : Nat.pow 10 a ≤ Nat.pow 10 b :=
  Nat.pow_le_pow_right (by decide) h

/-- Powers of two are measured by powers of ten without computing either. -/
private theorem pow_two_le {count rest more exponent places : Nat}
    (hexponent : exponent = 93 * count + rest) (hrest : Nat.pow 2 rest ≤ Nat.pow 10 more)
    (hplaces : 28 * count + more ≤ places) : Nat.pow 2 exponent ≤ Nat.pow 10 places := by
  have hbase : Nat.pow 2 93 ≤ Nat.pow 10 28 := by decide
  calc Nat.pow 2 exponent = Nat.pow 2 (93 * count) * Nat.pow 2 rest := by
        rw [hexponent]
        exact Nat.pow_add ..
    _ = Nat.pow (Nat.pow 2 93) count * Nat.pow 2 rest := by
        rw [show Nat.pow 2 (93 * count) = Nat.pow (Nat.pow 2 93) count from Nat.pow_mul ..]
    _ ≤ Nat.pow (Nat.pow 10 28) count * Nat.pow 10 more :=
        Nat.mul_le_mul (Nat.pow_le_pow_left hbase count) hrest
    _ = Nat.pow 10 (28 * count + more) := by
        rw [pow_ten_add,
          show Nat.pow 10 (28 * count) = Nat.pow (Nat.pow 10 28) count from Nat.pow_mul ..]
    _ ≤ Nat.pow 10 places := pow_ten_le hplaces

private theorem unit_eq : ∃ exponent, exponent = 1074 ∧ unit = Nat.pow 2 exponent := by
  delta unit
  generalize 1074 = exponent
  exact ⟨exponent, rfl, rfl⟩

private theorem double_unit_le {places : Nat} (h : 324 ≤ places) :
    2 * unit ≤ Nat.pow 10 places := by
  obtain ⟨exponent, hexponent, hunit⟩ := unit_eq
  have hdouble : 2 * unit = Nat.pow 2 (exponent + 1) := by
    rw [hunit, Nat.mul_comm]
    rfl
  rw [hdouble]
  exact @pow_two_le 11 52 16 _ _ (by omega) (by decide) (by omega)

private theorem pow_two_le_unit {shift places : Nat} (hshift : shift = 2046) (h : 309 ≤ places) :
    Nat.pow 2 (52 + shift) ≤ Nat.pow 10 places * unit := by
  obtain ⟨exponent, hexponent, hunit⟩ := unit_eq
  rw [hunit]
  clear hunit
  have hsum : 52 + shift = 52 + shift - exponent + exponent := by omega
  calc Nat.pow 2 (52 + shift) = Nat.pow 2 (52 + shift - exponent + exponent) := by rw [← hsum]
    _ = Nat.pow 2 (52 + shift - exponent) * Nat.pow 2 exponent := Nat.pow_add ..
    _ ≤ Nat.pow 10 places * Nat.pow 2 exponent :=
        Nat.mul_le_mul_right _ (@pow_two_le 11 1 1 _ _ (by omega) (by decide) h)

/-- Below half of the least magnitude. -/
theorem rank_of_small {d : DecimalNumber}
    (h : d.digits = 0 ∨ (digitCount d.digits : Int) + d.exponent < -330) : d.rank = 0 := by
  rw [rank_eq]
  apply nearestRank_of_small
  by_cases hzero : d.digits = 0
  · rw [hzero, Nat.zero_mul, Nat.zero_mul]
    exact pow_ten_pos _
  · have hpoint := h.resolve_left hzero
    have hunit : 2 * unit ≤ Nat.pow 10 ((-d.exponent).toNat - digitCount d.digits) :=
      double_unit_le (by omega)
    rw [show d.exponent.toNat = 0 by omega]
    calc 2 * (d.digits * 1 * unit) = d.digits * (2 * unit) := by
          rw [Nat.mul_one, Nat.mul_left_comm]
      _ < Nat.pow 10 (digitCount d.digits) *
          Nat.pow 10 ((-d.exponent).toNat - digitCount d.digits) :=
          Nat.mul_lt_mul_of_lt_of_le (lt_pow_digitCount _) hunit (pow_ten_pos _)
      _ = Nat.pow 10 (-d.exponent).toNat := by
          rw [← pow_ten_add]
          congr 1
          omega

/-- Beyond every finite double. -/
private theorem rankCount_le_rank {d : DecimalNumber} (hzero : d.digits ≠ 0)
    (h : (digitCount d.digits : Int) + d.exponent > 310) : rankCount ≤ d.rank := by
  obtain ⟨shift, hshift⟩ : ∃ shift, shift = 2046 := ⟨_, rfl⟩
  have hpos : 0 < digitCount d.digits := Nat.length_toDigits_pos
  have hplaces : Nat.pow 2 (52 + shift) ≤ Nat.pow 10
      (digitCount d.digits - 1 + d.exponent.toNat - (-d.exponent).toNat) * unit :=
    pow_two_le_unit hshift (by omega)
  have hlarge : Nat.pow 2 (52 + shift) * Nat.pow 10 (-d.exponent).toNat ≤
      d.digits * Nat.pow 10 d.exponent.toNat * unit := by
    calc Nat.pow 2 (52 + shift) * Nat.pow 10 (-d.exponent).toNat
      _ ≤ Nat.pow 10 (digitCount d.digits - 1 + d.exponent.toNat - (-d.exponent).toNat) * unit *
          Nat.pow 10 (-d.exponent).toNat := Nat.mul_le_mul_right _ hplaces
      _ = Nat.pow 10 (digitCount d.digits - 1) * Nat.pow 10 d.exponent.toNat * unit := by
          rw [Nat.mul_right_comm, ← pow_ten_add, ← pow_ten_add]
          congr 2
          omega
      _ ≤ d.digits * Nat.pow 10 d.exponent.toNat * unit :=
          Nat.mul_le_mul_right _ (Nat.mul_le_mul_right _ (pow_digitCount_le hzero))
  rw [rank_eq]
  calc rankCount = (shift + 1) * perBinade := by
        rw [hshift]
        decide
    _ ≤ _ := le_nearestRank (pow_ten_pos _) hlarge

/-- A decimal number is read as its rank: the bounds only spare the powers. -/
theorem ofDecimal_eq (negative : Bool) (d : DecimalNumber) :
    ofDecimal negative d.digits d.exponent = ofRank negative d.rank := by
  simp only [ofDecimal]
  split
  · next hsmall => rw [rank_of_small hsmall]
  · next hsmall =>
      obtain ⟨hzero, -⟩ := not_or.mp hsmall
      split
      · next hlarge =>
          have hrank := rankCount_le_rank hzero hlarge
          rw [ofRank, dif_neg (Nat.not_lt.mpr hrank)]
      · unfold rank ratio
        split <;> rfl

theorem rank_carried (d : DecimalNumber) : d.carried.rank = d.rank := by
  unfold carried
  split
  · next hzero =>
      have hmoved := rank_shifted (d.digits / 10) 1 (d.exponent + 1)
      have hdigits : d.digits / 10 * Nat.pow 10 1 = d.digits :=
        Nat.div_mul_cancel (Nat.dvd_of_mod_eq_zero hzero)
      have hexponent : d.exponent + 1 - ((1 : Nat) : Int) = d.exponent := by omega
      rw [hdigits, hexponent] at hmoved
      exact hmoved.symm
  · rfl

end DecimalNumber

namespace Binary64

open DecimalNumber

theorem floorOnGrid_eq (rank : Nat) (exponent : Int) :
    floorOnGrid rank exponent =
      (units rank * Nat.pow 10 (-exponent).toNat / (unit * Nat.pow 10 exponent.toNat),
        compare (2 * (units rank * Nat.pow 10 (-exponent).toNat %
          (unit * Nat.pow 10 exponent.toNat))) (unit * Nat.pow 10 exponent.toNat)) := by
  unfold floorOnGrid
  by_cases h : exponent < 0
  · simp only [if_pos h]
    rw [show exponent.toNat = 0 by omega, show exponent.natAbs = (-exponent).toNat by omega]
  · simp only [if_neg h]
    rw [show (-exponent).toNat = 0 by omega, show exponent.natAbs = exponent.toNat by omega]

/-- A magnitude reaches the power of ten of its decade. -/
theorem decade_le {rank : Nat} (h : rank ≠ 0) :
    unit * Nat.pow 10 (decade rank).toNat ≤ units rank * Nat.pow 10 (-decade rank).toNat := by
  have hunits := units_pos h
  unfold decade
  simp only
  split
  · next hwhole =>
      have hpos : 0 < digitCount (units rank / unit) := Nat.length_toDigits_pos
      rw [show (-((digitCount (units rank / unit) : Int) - 1)).toNat = 0 by omega,
        show ((digitCount (units rank / unit) : Int) - 1).toNat =
          digitCount (units rank / unit) - 1 by omega]
      calc unit * Nat.pow 10 (digitCount (units rank / unit) - 1)
        _ ≤ unit * (units rank / unit) := Nat.mul_le_mul_left _ (pow_digitCount_le hwhole)
        _ ≤ units rank := Nat.mul_div_le _ _
        _ = units rank * Nat.pow 10 0 := (Nat.mul_one _).symm
  · next hwhole =>
      generalize hplaces : 330 = places
      have hless : units rank < unit :=
        Nat.lt_of_not_le fun hle => hwhole (Nat.ne_of_gt (Nat.div_pos hle unit_pos))
      have hsmall : units rank * Nat.pow 10 places / unit ≠ 0 := by
        refine Nat.ne_of_gt (Nat.div_pos ?_ unit_pos)
        have hunit : 2 * unit ≤ Nat.pow 10 places := double_unit_le (by omega)
        calc unit ≤ Nat.pow 10 places := by omega
          _ ≤ units rank * Nat.pow 10 places := Nat.le_mul_of_pos_left _ hunits
      generalize hcount : digitCount (units rank * Nat.pow 10 places / unit) = count
      have hpos : 0 < count := by
        rw [← hcount]
        exact Nat.length_toDigits_pos
      have hmost : count ≤ places := by
        rw [← hcount]
        refine (Nat.length_toDigits_le_iff (by decide) (by omega)).mpr ?_
        rw [Nat.div_lt_iff_lt_mul unit_pos, Nat.mul_comm]
        exact Nat.mul_lt_mul_of_pos_left hless (pow_ten_pos _)
      have hleast : Nat.pow 10 (count - 1) * unit ≤ units rank * Nat.pow 10 places := by
        rw [← Nat.le_div_iff_mul_le unit_pos, ← hcount]
        exact pow_digitCount_le hsmall
      have hdecade : unit * Nat.pow 10 (count - 1) ≤
          units rank * Nat.pow 10 (places - (count - 1)) * Nat.pow 10 (count - 1) := by
        rw [Nat.mul_assoc, ← pow_ten_add, Nat.sub_add_cancel (by omega), Nat.mul_comm unit]
        exact hleast
      rw [show ((count : Int) - 331).toNat = 0 by omega,
        show (-((count : Int) - 331)).toNat = places - (count - 1) by omega,
        show Nat.pow 10 0 = 1 from rfl, Nat.mul_one]
      exact Nat.le_of_mul_le_mul_right hdecade (pow_ten_pos _)

/-- On the grid of some places more than its decade, a magnitude has as many digits more. -/
theorem le_floorOnGrid {rank : Nat} (h : rank ≠ 0) (count : Nat) :
    Nat.pow 10 count ≤ (floorOnGrid rank (decade rank - count)).1 := by
  have hdecade := decade_le h
  rw [floorOnGrid_eq]
  simp only
  generalize decade rank = top at hdecade ⊢
  rw [Nat.le_div_iff_mul_le (Nat.mul_pos unit_pos (pow_ten_pos _))]
  refine Nat.le_of_mul_le_mul_right ?_ (pow_ten_pos (-top).toNat)
  have hpowers : Nat.pow 10 count * Nat.pow 10 (top - count).toNat * Nat.pow 10 (-top).toNat =
      Nat.pow 10 top.toNat * Nat.pow 10 (-(top - count)).toNat := by
    simp only [← pow_ten_add]
    congr 1
    omega
  calc Nat.pow 10 count * (unit * Nat.pow 10 (top - count).toNat) * Nat.pow 10 (-top).toNat
    _ = unit * (Nat.pow 10 count * Nat.pow 10 (top - count).toNat * Nat.pow 10 (-top).toNat) := by
        rw [Nat.mul_left_comm, Nat.mul_assoc]
    _ = unit * Nat.pow 10 top.toNat * Nat.pow 10 (-(top - count)).toNat := by
        rw [hpowers, Nat.mul_assoc]
    _ ≤ units rank * Nat.pow 10 (-top).toNat * Nat.pow 10 (-(top - count)).toNat :=
        Nat.mul_le_mul_right _ hdecade
    _ = units rank * Nat.pow 10 (-(top - count)).toNat * Nat.pow 10 (-top).toNat :=
        Nat.mul_right_comm ..

theorem readsBack_iff {rank : Nat} {d : DecimalNumber} :
    readsBack rank d = true ↔ d.rank = rank := by
  simp [readsBack, DecimalNumber.rank]

/-- The neighbour that is tried first is at most half a step away. -/
theorem onGrid?_eq (rank : Nat) (exponent : Int) :
    let num := units rank * Nat.pow 10 (-exponent).toNat
    let den := unit * Nat.pow 10 exponent.toNat
    ∃ first second : DecimalNumber,
      onGrid? rank exponent = (if readsBack rank first then some first
        else if readsBack rank second then some second else none) ∧
      (first = ⟨num / den, exponent⟩ ∧ 2 * (num % den) ≤ den ∨
        first = ⟨num / den + 1, exponent⟩ ∧ den ≤ 2 * (num % den)) := by
  intro num den
  have hfloor : floorOnGrid rank exponent = (num / den, compare (2 * (num % den)) den) :=
    floorOnGrid_eq rank exponent
  unfold onGrid?
  rw [hfloor]
  cases hside : compare (2 * (num % den)) den with
  | lt => exact ⟨_, _, rfl, Or.inl ⟨rfl, Nat.le_of_lt (Nat.compare_eq_lt.mp hside)⟩⟩
  | gt => exact ⟨_, _, rfl, Or.inr ⟨rfl, Nat.le_of_lt (Nat.compare_eq_gt.mp hside)⟩⟩
  | eq =>
      have hequal := Nat.compare_eq_eq.mp hside
      by_cases heven : (num / den % 2 == 0) = true
      · simp only [heven, if_true]
        exact ⟨_, _, rfl, Or.inl ⟨rfl, Nat.le_of_eq hequal⟩⟩
      · simp only [heven]
        exact ⟨_, _, rfl, Or.inr ⟨rfl, Nat.le_of_eq hequal.symm⟩⟩

theorem rank_of_onGrid? {rank : Nat} {exponent : Int} {d : DecimalNumber}
    (h : onGrid? rank exponent = some d) : d.rank = rank := by
  obtain ⟨first, second, heq, -⟩ := onGrid?_eq rank exponent
  rw [heq] at h
  split at h
  · next hfirst =>
      cases h
      exact readsBack_iff.mp hfirst
  · split at h
    · next hsecond =>
        cases h
        exact readsBack_iff.mp hsecond
    · cases h

/-- Near to a magnitude is nearer than one part in twice ten to the 16th. -/
private theorem rank_of_near {rank digits : Nat} {exponent : Int}
    (hbelow : 19999999999999999 * (units rank * Nat.pow 10 (-exponent).toNat) ≤
      20000000000000000 * (digits * (unit * Nat.pow 10 exponent.toNat)))
    (habove : 20000000000000000 * (digits * (unit * Nat.pow 10 exponent.toNat)) ≤
      20000000000000001 * (units rank * Nat.pow 10 (-exponent).toNat)) :
    DecimalNumber.rank ⟨digits, exponent⟩ = rank := by
  have hvalue : digits * Nat.pow 10 exponent.toNat * unit =
      digits * (unit * Nat.pow 10 exponent.toNat) := by
    rw [Nat.mul_assoc, Nat.mul_comm unit]
  rw [rank_eq]
  apply nearestRank_of_near (pow_ten_pos _)
  · rw [hvalue]
    exact hbelow
  · rw [hvalue]
    exact habove

/-- Seventeen digits suffice: half a step is less than what rounding makes up for. -/
theorem exists_onGrid? {rank : Nat} {exponent : Int}
    (h : Nat.pow 10 16 ≤ (floorOnGrid rank exponent).1) : ∃ d, onGrid? rank exponent = some d := by
  obtain ⟨first, second, heq, hfirst⟩ := onGrid?_eq rank exponent
  suffices hback : first.rank = rank by
    rw [heq, if_pos (readsBack_iff.mpr hback)]
    exact ⟨_, rfl⟩
  have hdigits : Nat.pow 10 16 = 10000000000000000 := rfl
  rw [floorOnGrid_eq, hdigits] at h
  generalize hnum : units rank * Nat.pow 10 (-exponent).toNat = num at h hfirst
  generalize hden : unit * Nat.pow 10 exponent.toNat = den at h hfirst
  have hdiv : num / den * den + num % den = num := by
    rw [Nat.mul_comm]
    exact Nat.div_add_mod num den
  have hlarge : 10000000000000000 * den ≤ num / den * den := Nat.mul_le_mul_right den h
  have hmod : num % den < den := by
    rw [← hden]
    exact Nat.mod_lt _ (Nat.mul_pos unit_pos (pow_ten_pos _))
  rcases hfirst with ⟨rfl, hside⟩ | ⟨rfl, hside⟩
  · apply rank_of_near
    all_goals
      rw [hnum, hden]
      omega
  · have hnext : (num / den + 1) * den = num / den * den + den := Nat.succ_mul ..
    apply rank_of_near
    all_goals
      rw [hnum, hden]
      omega

/-- The search finds a number on some grid if one of those it may try has a number. -/
theorem exists_firstFound {grid? : Int → Option DecimalNumber} {cut : Int → Nat} {top : Int}
    {fuel count : Nat} (h : ∃ more < fuel, ∃ d, grid? (top - (count + more : Nat)) = some d) :
    ∃ exponent, grid? exponent = some (firstFound grid? cut top fuel count) := by
  induction fuel generalizing count with
  | zero =>
      obtain ⟨more, hmore, -⟩ := h
      cases hmore
  | succ fuel ih =>
      cases hgrid : grid? (top - count) with
      | some d => exact ⟨top - count, by simp only [firstFound, hgrid]⟩
      | none =>
          obtain ⟨more, hmore, d, hd⟩ := h
          cases more with
          | zero =>
              rw [Nat.add_zero, hgrid] at hd
              cases hd
          | succ more =>
              simp only [firstFound, hgrid]
              refine ih ⟨more, by omega, d, ?_⟩
              rwa [Nat.add_right_comm]

/-- The shortest decimal number of a rank is read as that rank. -/
theorem rank_shortest {rank : Nat} (h : rank ≠ 0) : (shortest rank).rank = rank := by
  have hlarge := le_floorOnGrid h 16
  obtain ⟨exponent, hfound⟩ : ∃ exponent, onGrid? rank exponent = some
      (firstFound (onGrid? rank) (fun e => (floorOnGrid rank e).1) (decade rank) 17 0) := by
    refine exists_firstFound ⟨16, by decide, ?_⟩
    rw [Nat.zero_add]
    exact exists_onGrid? hlarge
  rw [shortest, rank_carried]
  exact rank_of_onGrid? hfound

end Binary64

end FunctionPipeline

/-!
How many decimal digits integers may have where they are read or written.
-/

namespace FunctionPipeline

/-- The most decimal digits with which an integer is read or written. -/
def digitLimit : Nat := 4300

/-- Whether a whole number has more decimal digits than a count; zero counts as having none. -/
def hasMoreDigits : Nat → Nat → Bool
  | 0, n => n != 0
  | count + 1, n => n != 0 && hasMoreDigits count (n / 10)

/-- Whether an integer has too many digits to be written; its sign does not count. -/
def isLongInteger (i : Int) : Bool := hasMoreDigits digitLimit i.natAbs

/-- The numbers with more digits than a count are those from a power of ten on. -/
theorem hasMoreDigits_iff (count n : Nat) :
    hasMoreDigits count n = true ↔ Nat.pow 10 count ≤ n := by
  induction count generalizing n with
  | zero =>
    have power : Nat.pow 10 0 = 1 := rfl
    simp only [hasMoreDigits, bne_iff_ne, power]
    omega
  | succ count ih =>
    have power : Nat.pow 10 (count + 1) = Nat.pow 10 count * 10 := rfl
    have positive : 0 < Nat.pow 10 count := Nat.pow_pos (by decide)
    simp only [hasMoreDigits, Bool.and_eq_true, bne_iff_ne, ih,
      Nat.le_div_iff_mul_le (Nat.zero_lt_succ 9), power]
    omega

end FunctionPipeline

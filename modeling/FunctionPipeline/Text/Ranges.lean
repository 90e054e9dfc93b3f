/-!
Sets of code points given as ranges in increasing order, and runs of letters that are as far from
their counterparts in the other case.
-/

namespace FunctionPipeline

/-- Whether a number lies in one of the ranges, which stand in increasing order. -/
def inRanges : List (Nat × Nat) → Nat → Bool
  | [], _ => false
  | (first, last) :: rest, n =>
      if n < first then false else if n ≤ last then true else inRanges rest n

/-- A run of letters: first and last code point, the step from one letter of the run to the next,
and the distance to the letter of the other case. -/
structure LetterRun where
  first : Nat
  last : Nat
  step : Nat
  distance : Int
  deriving DecidableEq, Repr

def LetterRun.holds (run : LetterRun) (c : Nat) : Bool :=
  run.first ≤ c && c ≤ run.last && (c - run.first) % run.step == 0

def LetterRun.counterpart (run : LetterRun) (c : Char) : Char :=
  Char.ofNat ((c.toNat : Int) + run.distance).toNat

end FunctionPipeline

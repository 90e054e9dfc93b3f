/-!
Double-precision numbers without machine arithmetic. A finite double is a sign and a rank: the
number of non-negative doubles below its magnitude. Ranks order magnitudes, so rounding a ratio is
finding the nearest rank, and every comparison is one of exact integers.
-/

namespace FunctionPipeline

/-- How many doubles there are between a power of two and the next one: two to the 52nd. -/
abbrev Binary64.perBinade : Nat := 0x10000000000000

/-- How many non-negative finite doubles there are: those of 2047 binades. -/
abbrev Binary64.rankCount : Nat := 0x7FF0000000000000

/-- A double. Two not-a-number values are the same only if they have the same origin. -/
inductive Binary64 where
  | finite (negative : Bool) (rank : Fin Binary64.rankCount)
  | infinite (negative : Bool)
  | nan (origin : Nat)
  deriving DecidableEq, Repr

instance : Inhabited Binary64 := ⟨.infinite false⟩

namespace Binary64

/-- The whole number that a rank's magnitude is, up to its power of two. -/
def significand (rank : Nat) : Nat :=
  if rank < perBinade then rank else perBinade + rank % perBinade

/-- The power of two beside the significand, counted from the smallest one. -/
def scale (rank : Nat) : Nat :=
  if rank < perBinade then 0 else rank / perBinade - 1

/-- All magnitudes are whole multiples of this unit's inverse. -/
def unit : Nat := Nat.pow 2 1074

theorem unit_pos : 0 < unit := by
  delta unit
  -- as a literal the exponent would have the power computed
  generalize 1074 = exponent
  exact Nat.pow_pos (by decide)

def units (rank : Nat) : Nat :=
  significand rank * Nat.pow 2 (scale rank)

/-- The nearest whole number to a ratio; a half goes to the even neighbour. -/
def divideToEven (num den : Nat) : Nat :=
  let quotient := num / den
  let rest := num % den
  if 2 * rest < den then quotient
  else if 2 * rest > den then quotient + 1
  else quotient + quotient % 2

/-- How many binary places a ratio is shifted for its significand to have 53 bits. -/
def binade (num den : Nat) : Nat :=
  let scaled := num * unit / den
  Nat.log2 scaled - 52

/-- The rank nearest to a ratio, ties to the even rank. It may be no finite double's. -/
def nearestRank (num den : Nat) : Nat :=
  let shift := binade num den
  shift * perBinade + divideToEven (num * unit) (den * Nat.pow 2 shift)

/-- The double with a given sign and rank, infinite beyond the last finite one. -/
def ofRank (negative : Bool) (rank : Nat) : Binary64 :=
  if h : rank < rankCount then .finite negative ⟨rank, h⟩ else .infinite negative

def ofRatio (negative : Bool) (num den : Nat) : Binary64 :=
  ofRank negative (nearestRank num den)

def zero : Binary64 := ofRank false 0

/-- The double nearest to an integer; none if it is too large for a finite double. -/
def ofInt? (i : Int) : Option Binary64 :=
  match ofRatio (i < 0) i.natAbs 1 with
  | .finite negative rank => some (.finite negative rank)
  | _ => none

def digitCount (n : Nat) : Nat := (Nat.toDigits 10 n).length

/-- The double nearest to `digits · 10 ^ exponent`. Exponents that put the number beyond every
finite double, or below half of the least one, are answered without computing the power. -/
def ofDecimal (negative : Bool) (digits : Nat) (exponent : Int) : Binary64 :=
  let point := (digitCount digits : Int) + exponent
  if digits = 0 ∨ point < -330 then ofRank negative 0
  else if point > 310 then .infinite negative
  else if exponent < 0 then ofRatio negative digits (Nat.pow 10 exponent.natAbs)
  else ofRatio negative (digits * Nat.pow 10 exponent.natAbs) 1

def isFinite : Binary64 → Bool
  | .finite .. => true
  | _ => false

def scaled? : Binary64 → Option Int
  | .finite negative rank =>
      some (if negative then -(units rank : Int) else (units rank : Int))
  | _ => none

/-- The double nearest to an exact value in units; zero takes the given sign. -/
def ofScaled (zeroSign : Bool) (value : Int) (denominator : Nat) : Binary64 :=
  if value = 0 then ofRank zeroSign 0
  else ofRatio (value < 0) value.natAbs (unit * denominator)

def isZero : Binary64 → Bool
  | .finite _ rank => rank.val == 0
  | _ => false

/-- The sign bit; not-a-number has none. -/
def isNegative : Binary64 → Bool
  | .finite negative _ => negative
  | .infinite negative => negative
  | .nan _ => false

def negate : Binary64 → Binary64
  | .finite negative rank => .finite (!negative) rank
  | .infinite negative => .infinite (!negative)
  | .nan origin => .nan origin

def add : Binary64 → Binary64 → Binary64
  | .nan origin, _ => .nan origin
  | _, .nan origin => .nan origin
  | .infinite a, .infinite b => if a = b then .infinite a else .nan 0
  | .infinite a, _ => .infinite a
  | _, .infinite b => .infinite b
  | x@(.finite a _), y@(.finite b _) =>
      ofScaled (a && b) (x.scaled?.getD 0 + y.scaled?.getD 0) 1

def multiply : Binary64 → Binary64 → Binary64
  | .nan origin, _ => .nan origin
  | _, .nan origin => .nan origin
  | x@(.finite a _), y@(.finite b _) =>
      ofScaled (a != b) (x.scaled?.getD 0 * y.scaled?.getD 0) unit
  | x, y => if x.isZero || y.isZero then .nan 0 else .infinite (x.isNegative != y.isNegative)

/-- Numbers in an order that holds every double but not-a-number: a finite value in units lies
between the two infinities. -/
inductive Position where
  | below
  | at (units : Int)
  | above
  deriving DecidableEq, Repr

def position? : Binary64 → Option Position
  | x@(.finite ..) => x.scaled?.map .at
  | .infinite true => some .below
  | .infinite false => some .above
  | .nan _ => none

def Position.before : Position → Position → Bool
  | .below, .below => false
  | .below, _ => true
  | .at _, .below => false
  | .at a, .at b => a < b
  | .at _, .above => true
  | .above, _ => false

end Binary64

end FunctionPipeline

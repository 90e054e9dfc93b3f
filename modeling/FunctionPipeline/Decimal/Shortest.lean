import FunctionPipeline.Decimal.Binary64

/-!
Decimal text of doubles. `Binary64.shortest` gives the fewest digits that read back as the same
double and of those the nearest; `NumberStyle` holds the choices of a written form. `Fixed` is text
with a fixed count of places: the exact value is rounded, and a half goes to the even neighbour.
-/

namespace FunctionPipeline

/-- A positive decimal number `digits · 10 ^ exponent`. -/
structure DecimalNumber where
  digits : Nat
  exponent : Int
  deriving DecidableEq, Repr, Inhabited

namespace DecimalNumber

def ratio (d : DecimalNumber) : Nat × Nat :=
  if d.exponent < 0 then (d.digits, Nat.pow 10 d.exponent.natAbs)
  else (d.digits * Nat.pow 10 d.exponent.natAbs, 1)

/-- The same number without a zero as its last digit. -/
def carried (d : DecimalNumber) : DecimalNumber :=
  if d.digits % 10 = 0 then ⟨d.digits / 10, d.exponent + 1⟩ else d

end DecimalNumber

namespace Binary64

/-- The exponent `p` with `10 ^ p ≤ m < 10 ^ (p + 1)` for a rank's magnitude `m`. -/
def decade (rank : Nat) : Int :=
  let whole := units rank / unit
  if whole ≠ 0 then (digitCount whole : Int) - 1
  else (digitCount (units rank * Nat.pow 10 330 / unit) : Int) - 331

/-- A rank's magnitude on the grid of multiples of `10 ^ exponent`: the neighbour at or below it,
and how its distance to that one compares with its distance to the next. -/
def floorOnGrid (rank : Nat) (exponent : Int) : Nat × Ordering :=
  let num := units rank * (if exponent < 0 then Nat.pow 10 exponent.natAbs else 1)
  let den := unit * (if exponent < 0 then 1 else Nat.pow 10 exponent.natAbs)
  (num / den, compare (2 * (num % den)) den)

def readsBack (rank : Nat) (d : DecimalNumber) : Bool :=
  let (num, den) := d.ratio
  nearestRank num den == rank

/-- The better of a magnitude's two neighbours on a grid among those that read back: the nearer
one, and of two equally near the one with an even last digit. -/
def onGrid? (rank : Nat) (exponent : Int) : Option DecimalNumber :=
  let (below, side) := floorOnGrid rank exponent
  let lower : DecimalNumber := ⟨below, exponent⟩
  let upper : DecimalNumber := ⟨below + 1, exponent⟩
  let lowerFirst := match side with
    | .lt => true
    | .gt => false
    | .eq => below % 2 == 0
  let (first, second) := if lowerFirst then (lower, upper) else (upper, lower)
  if readsBack rank first then some first
  else if readsBack rank second then some second
  else none

/-- Tries grids of one more digit each until one has a number, and cuts off on the last grid. -/
def firstFound (grid? : Int → Option DecimalNumber) (cut : Int → Nat) (top : Int) :
    Nat → Nat → DecimalNumber
  | 0, count => ⟨cut (top - count), top - count⟩
  | fuel + 1, count =>
      match grid? (top - count) with
      | some d => d
      | none => firstFound grid? cut top fuel (count + 1)

/-- The shortest decimal number that reads back as a rank. Only a nine that is rounded up to ten
leaves a zero at its end. -/
def shortest (rank : Nat) : DecimalNumber :=
  (firstFound (onGrid? rank) (fun e => (floorOnGrid rank e).1) (decade rank) 17 0).carried

end Binary64

/-- How a double is written: which decimal point positions are written out in full, and what
stands for the values that have no digits. -/
structure NumberStyle where
  /-- Least and greatest position of the point, counted from the first digit, without exponent. -/
  fullFrom : Int
  fullTo : Int
  /-- What a significand of one digit is followed by before an exponent. -/
  soleDigitTail : String
  infinity : String
  notANumber : String

namespace NumberStyle

/-- The style of messages and of JSON-like text: an exponent from `1e+16` on and below `0.0001`. -/
def plain : NumberStyle := ⟨-3, 16, "", "inf", "nan"⟩

def json : NumberStyle := { plain with infinity := "Infinity", notANumber := "NaN" }

/-- The style of documents, where a number with an exponent also has a point. -/
def document : NumberStyle :=
  { plain with soleDigitTail := ".0", infinity := ".inf", notANumber := ".nan" }

/-- An exponent with its sign and at least two digits. -/
def exponentText (e : Int) : String :=
  let digits := toString e.natAbs
  (if e < 0 then "-" else "+") ++ (if digits.length < 2 then "0" ++ digits else digits)

/-- Digits with a point after the first `point` of them. -/
def placePoint (style : NumberStyle) (digits : List Char) (point : Int) : String :=
  if style.fullFrom ≤ point ∧ point ≤ style.fullTo then
    if point ≤ 0 then
      String.ofList ('0' :: '.' :: List.replicate point.natAbs '0' ++ digits)
    else
      let whole := digits.take point.natAbs
      let part := digits.drop point.natAbs
      String.ofList (whole ++ List.replicate (point.natAbs - digits.length) '0' ++
        '.' :: (if part.isEmpty then ['0'] else part))
  else
    match digits with
    | [] => ""
    | first :: rest =>
        String.ofList [first] ++
          (if rest.isEmpty then style.soleDigitTail else String.ofList ('.' :: rest)) ++
          "e" ++ exponentText (point - 1)

def magnitude (style : NumberStyle) (rank : Nat) : String :=
  if rank = 0 then "0.0"
  else
    let d := Binary64.shortest rank
    let digits := Nat.toDigits 10 d.digits
    style.placePoint digits (digits.length + d.exponent)

def text (style : NumberStyle) : Binary64 → String
  | .finite negative rank => (if negative then "-" else "") ++ style.magnitude rank
  | .infinite negative => (if negative then "-" else "") ++ style.infinity
  | .nan _ => style.notANumber

end NumberStyle

end FunctionPipeline

namespace FunctionPipeline.Fixed

def ratio (places num den : Nat) : String :=
  let digits := Nat.toDigits 10 (Binary64.divideToEven (num * Nat.pow 10 places) den)
  let digits := List.replicate (places + 1 - digits.length) '0' ++ digits
  let whole := digits.length - places
  String.ofList (digits.take whole ++ '.' :: digits.drop whole)

/-- The text of a double; the sign of zero is kept. -/
def text (places : Nat) : Binary64 → String
  | .finite negative rank =>
      (if negative then "-" else "") ++ ratio places (Binary64.units rank) Binary64.unit
  | .infinite negative => (if negative then "-" else "") ++ "inf"
  | .nan _ => "nan"

end FunctionPipeline.Fixed

import FunctionPipeline.Decimal.Binary64
import FunctionPipeline.Text.Pieces
import FunctionPipeline.Text.Ranges

/-!
Decimal digits of every script, each of which has its ten digits in a row, zero first; and reading
numerals: integers in a base and floating numbers, with digits of any script, blanks around them,
and single underscores between digits. The information separators of ASCII are no blanks here,
although they are white space elsewhere.
-/

namespace FunctionPipeline

/-- First and last code point of rows of decimal digits. -/
def digitRows : List (Nat × Nat) :=
  [(48, 57), (1632, 1641), (1776, 1785), (1984, 1993), (2406, 2415), (2534, 2543), (2662, 2671),
   (2790, 2799), (2918, 2927), (3046, 3055), (3174, 3183), (3302, 3311), (3430, 3439), (3558,
   3567), (3664, 3673), (3792, 3801), (3872, 3881), (4160, 4169), (4240, 4249), (6112, 6121),
   (6160, 6169), (6470, 6479), (6608, 6617), (6784, 6793), (6800, 6809), (6992, 7001), (7088,
   7097), (7232, 7241), (7248, 7257), (42528, 42537), (43216, 43225), (43264, 43273), (43472,
   43481), (43504, 43513), (43600, 43609), (44016, 44025), (65296, 65305), (66720, 66729),
   (68912, 68921), (69734, 69743), (69872, 69881), (69942, 69951), (70096, 70105), (70384,
   70393), (70736, 70745), (70864, 70873), (71248, 71257), (71360, 71369), (71472, 71481),
   (71904, 71913), (72016, 72025), (72784, 72793), (73040, 73049), (73120, 73129), (92768,
   92777), (92864, 92873), (93008, 93017), (120782, 120831), (123200, 123209), (123632, 123641),
   (125264, 125273), (130032, 130041)]

/-- The value of a decimal digit of any script. -/
def digitValue? (c : Char) : Option Nat :=
  if c.isDigit then some (c.toNat - 48)
  else if c.toNat < 128 then none
  else (digitRows.find? fun row => row.1 ≤ c.toNat && c.toNat ≤ row.2).map fun row =>
    (c.toNat - row.1) % 10

end FunctionPipeline

namespace FunctionPipeline.Numeral

def digitsIn (s : List Char) : Nat := (s.filter fun c => (digitValue? c).isSome).length

def isAround (c : Char) : Bool := isBlank c && !(28 ≤ c.toNat && c.toNat ≤ 31)

/-- Without what may stand around a numeral, and with ASCII digits in place of those of other
scripts. -/
def simplified (s : List Char) : List Char :=
  (((s.dropWhile isAround).reverse.dropWhile isAround).reverse).map fun c =>
    match digitValue? c with
    | some d => Char.ofNat (48 + d)
    | none => c

/-- A sign in front, true for minus, and the rest. -/
def sign (s : List Char) : Bool × List Char :=
  match s with
  | '-' :: rest => (true, rest)
  | '+' :: rest => (false, rest)
  | rest => (false, rest)

/-- Without single underscores between digits; nothing if there are others. -/
def ungrouped? (isDigit : Char → Bool) : List Char → Option (List Char)
  | [] => some []
  | ['_'] => none
  | c :: '_' :: d :: rest =>
      if isDigit c && isDigit d then (ungrouped? isDigit (d :: rest)).map (c :: ·) else none
  | c :: rest => if c = '_' then none else (ungrouped? isDigit rest).map (c :: ·)

/-- The value of a digit or letter in a base up to 36. -/
def digitIn? (base : Nat) (c : Char) : Option Nat :=
  let value :=
    if c.isDigit then c.toNat - 48
    else if 'a' ≤ c ∧ c ≤ 'z' then c.toNat - 87
    else if 'A' ≤ c ∧ c ≤ 'Z' then c.toNat - 55
    else base
  if value < base then some value else none

def natural? (base : Nat) (s : List Char) : Option Nat :=
  if s.isEmpty then none
  else s.foldl (fun n? c => do return (← n?) * base + (← digitIn? base c)) (some 0)

def marker (base : Nat) : Option Char :=
  if base = 2 then some 'b' else if base = 8 then some 'o' else if base = 16 then some 'x' else none

/-- Without the mark of the base in front. An underscore may follow the mark. -/
def unmarked (base : Nat) (s : List Char) : List Char :=
  match s with
  | '0' :: m :: rest =>
      if marker base = some m.toLower then
        match rest with
        | '_' :: rest => rest
        | rest => rest
      else s
  | s => s

def int? (base : Nat) (s : List Char) : Option Int := do
  let (negative, rest) := sign (simplified s)
  let n ← natural? base (← ungrouped? (fun c => (digitIn? base c).isSome) (unmarked base rest))
  return if negative then -(n : Int) else n

def exponent? (s : List Char) : Option Int := do
  let (negative, rest) := sign s
  if rest.isEmpty || !rest.all Char.isDigit then none
  let n ← natural? 10 rest
  return if negative then -(n : Int) else n

/-- A floating number: an infinity, a not-a-number, or digits with maybe a point and an exponent. -/
def float? (origin : Nat) (s : List Char) : Option Binary64 := do
  let s ← ungrouped? Char.isDigit (simplified s)
  let (negative, rest) := sign s
  let word := String.ofList (rest.map Char.toLower)
  if word == "inf" || word == "infinity" then return .infinite negative
  if word == "nan" then return .nan origin
  let (whole, rest) := rest.span Char.isDigit
  let (part, rest) := match rest with
    | '.' :: rest => rest.span Char.isDigit
    | rest => ([], rest)
  if whole.isEmpty && part.isEmpty then none
  let exponent ← match rest with
    | [] => some 0
    | e :: rest => if e = 'e' || e = 'E' then exponent? rest else none
  let digits ← natural? 10 (whole ++ part)
  return .ofDecimal negative digits (exponent - part.length)

end FunctionPipeline.Numeral

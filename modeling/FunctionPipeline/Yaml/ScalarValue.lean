import FunctionPipeline.Decimal.Length
import FunctionPipeline.Json.Reader
import FunctionPipeline.Text.Base64
import FunctionPipeline.Text.Numeral
import FunctionPipeline.Text.Pieces
import FunctionPipeline.Text.Utf8
import FunctionPipeline.Yaml.Node

/-!
The values of scalars by their tags. A scalar whose tag was written out may have a text that is no
value of its kind, which is a fault.
-/

namespace FunctionPipeline.Yaml

def notANumberOrigin : Nat := 1

namespace ScalarValue

def refuse {α : Type} (cause : Fault) : Except ReadError α := .error (.fault cause)

def bad {α : Type} (kind : String) (s : List Char) : Except ReadError α :=
  refuse (.badValue s!"invalid literal for {kind}: {Quoted.text (String.ofList s)}")

def present {α : Type} (cause : Fault) (v : Option α) : Except ReadError α :=
  match v with
  | some a => .ok a
  | none => refuse cause

def found {α : Type} (kind : String) (s : List Char) (v : Option α) : Except ReadError α :=
  match v with
  | some a => .ok a
  | none => bad kind s

/-- A text without underscores, and whether it has a minus sign, which is left out. -/
def unsigned (s : List Char) : Bool × List Char :=
  match s.filter (· ≠ '_') with
  | '-' :: rest => (true, rest)
  | '+' :: rest => (false, rest)
  | rest => (false, rest)

def decimal (s : List Char) : Except ReadError Int :=
  let digits := Numeral.digitsIn s
  match Numeral.int? 10 s with
  | some n => if digits > digitLimit then refuse (.tooManyDigits digits) else .ok n
  | none => bad "int() with base 10" s

def sexagesimal (groups : List Int) : Int := groups.foldl (fun n d => n * 60 + d) 0

/-- An integer: binary, hexadecimal, octal after a zero, in base sixty with colons, or decimal. -/
def int (s : List Char) : Except ReadError Int := do
  let (negative, s) := unsigned s
  let n ←
    match s with
    | [] => refuse (.indexOutOfRange "str")
    | ['0'] => pure 0
    | '0' :: 'b' :: rest => found "int() with base 2" rest (Numeral.int? 2 rest)
    | '0' :: 'x' :: rest => found "int() with base 16" rest (Numeral.int? 16 rest)
    | '0' :: _ => found "int() with base 8" s (Numeral.int? 8 s)
    | _ =>
        if s.contains ':' then sexagesimal <$> (pieces ':' s).mapM decimal
        else decimal s
  return if negative then -n else n

/-- The sum of groups in base sixty, the last one first, rounded at each step. What one is worth at
a place may be too large for a double. -/
def sexagesimalFloat : Nat → Binary64 → List Binary64 → Except ReadError Binary64
  | _, sum, [] => .ok sum
  | base, sum, d :: rest => do
      let worth ← present .overflow (Binary64.ofInt? base)
      sexagesimalFloat (base * 60) (sum.add (d.multiply worth)) rest

/-- A float. The one word for a not-a-number is the same one everywhere; any other text for one
makes one of the given origin. -/
def float (origin : Nat) (s : List Char) : Except ReadError Binary64 := do
  if s.all (· = '_') then refuse (.indexOutOfRange "str")
  let (negative, s) := unsigned (s.map Char.toLower)
  let word := String.ofList s
  if word == ".nan" then return .nan notANumberOrigin
  let x ←
    if word == ".inf" then pure (.infinite false)
    else if s.contains ':' then do
      let groups ← (pieces ':' s).mapM fun g => found "float()" g (Numeral.float? origin g)
      sexagesimalFloat 1 .zero groups.reverse
    else found "float()" s (Numeral.float? origin s)
  return match x with
    | .nan _ => .nan origin
    | x => if negative then x.negate else x

def bool (s : List Char) : Except ReadError Bool :=
  let word := s.map Char.toLower
  match Plain.truths.find? fun e => e.1.toList == word with
  | some (_, b) => .ok b
  | none => refuse (.noSuchKey (.str (String.ofList word)))

def number (digits : List Char) : Nat := Json.decimalNumber digits

/-- The offset of a time zone in seconds; a day or more is none. -/
def offset : Plain.Zone → Except ReadError (Option Int)
  | .none => .ok none
  | .universal => .ok (some 0)
  | .offset negative hours minutes =>
      let seconds : Int := number hours * 3600 + number minutes * 60
      if seconds ≥ 86400 then
        refuse (.badValue "offset must be strictly between a day before and a day after")
      else .ok (some (if negative then -seconds else seconds))

/-- A day or a moment. The fraction counts to the microsecond. -/
def timestamp (s : List Char) : Except ReadError Value := do
  let line := if s.getLast? = some '\n' then s.dropLast else s
  match Plain.timestamp? line with
  | none => refuse (.noAttribute "NoneType" "groupdict")
  | some t =>
      let date : Date := ⟨number t.year, number t.month, number t.day⟩
      match t.time with
      | none => if date.isValid then return .date date else refuse (.badValue "day is out of range")
      | some (hour, minute, second, part) =>
          let micro := (part ++ List.replicate 6 '0').take 6
          let offset ← offset t.zone
          let moment : Moment :=
            ⟨date, number hour, number minute, number second, number micro, offset⟩
          if moment.isValid then return .moment moment
          else refuse (.badValue "moment is out of range")

def binary (s : List Char) : Except ReadError Value :=
  if s.any fun c => c.toNat ≥ 128 then .error .malformed
  else
    match Base64.decode? s with
    | some octets => .ok (.bytes octets)
    | none => .error .malformed

def originOf (number : Nat) : Nat := notANumberOrigin + 1 + number

def ofText (tag : Tag) (number : Nat) (s : List Char) : Except ReadError Value :=
  match tag with
  | .null => .ok .null
  | .bool => do return .bool (← bool s)
  | .int => do return .int (← int s)
  | .float => do return .float (← float (originOf number) s)
  | .binary => binary s
  | .timestamp => timestamp s
  | .str => .ok (.str (String.ofList s))
  | _ => .error .malformed

/-- The value of a mapping that stands for a text, by its tag. A timestamp has to be written as a
scalar. -/
def ofMapping (tag : Tag) (number : Nat) (s : List Char) : Except ReadError Value :=
  match tag with
  | .timestamp => refuse (.notText "list")
  | _ => ofText tag number s

def isScalarTag (tag : Tag) : Bool :=
  [Tag.null, .bool, .int, .float, .binary, .timestamp, .str].contains tag

end ScalarValue

end FunctionPipeline.Yaml

import FunctionPipeline.Decimal.Length
import FunctionPipeline.Document.Value
import FunctionPipeline.Text.Hex
import FunctionPipeline.Text.Pieces

/-!
Reading JSON text. Beside the standard's values the reader takes `NaN`, `Infinity` and
`-Infinity`; a later member of an object takes the place of an earlier one of the same name.
-/

namespace FunctionPipeline.Json

inductive ReadError where
  | malformed
  /-- An integer with more digits than are allowed. -/
  | tooManyDigits (count : Nat)
  deriving DecidableEq, Repr

def isJsonBlank (c : Char) : Bool := c = ' ' || c = '\t' || c = '\n' || c = '\r'

def skipBlank (s : List Char) : List Char := s.dropWhile isJsonBlank

def escapedChar? : Char → Option Char
  | '"' => some '"'
  | '\\' => some '\\'
  | '/' => some '/'
  | 'b' => some '\x08'
  | 'f' => some '\x0c'
  | 'n' => some '\n'
  | 'r' => some '\r'
  | 't' => some '\t'
  | _ => none

/-- The code units of a string literal after its opening quote, and what follows the closing one.
Control characters have to be escaped. -/
def stringUnits? : List Char → Option (List Nat × List Char)
  | [] => none
  | '"' :: rest => some ([], rest)
  | '\\' :: 'u' :: a :: b :: c :: d :: rest => do
      let n ← hexNumber? [a, b, c, d]
      let (units, rest) ← stringUnits? rest
      return (n :: units, rest)
  | '\\' :: e :: rest => do
      let c ← escapedChar? e
      let (units, rest) ← stringUnits? rest
      return (c.toNat :: units, rest)
  | c :: rest => do
      if c.toNat < 32 then none
      let (units, rest) ← stringUnits? rest
      return (c.toNat :: units, rest)

/-- The characters of code units: a high surrogate and a low one after it make one character, a
surrogate on its own the replacement character. -/
def joinUnits : List Nat → List Char
  | [] => []
  | [n] => [if n.isValidChar then Char.ofNat n else '\uFFFD']
  | high :: low :: rest =>
      if 0xD800 ≤ high ∧ high < 0xDC00 ∧ 0xDC00 ≤ low ∧ low < 0xE000 then
        Char.ofNat (0x10000 + (high - 0xD800) * 0x400 + (low - 0xDC00)) :: joinUnits rest
      else
        (if high.isValidChar then Char.ofNat high else '\uFFFD') :: joinUnits (low :: rest)

def string? (s : List Char) : Option (String × List Char) :=
  (stringUnits? s).map fun (units, rest) => (String.ofList (joinUnits units), rest)

def decimalNumber (digits : List Char) : Nat :=
  digits.foldl (fun n c => n * 10 + (c.toNat - 48)) 0

def digitsOf (s : List Char) : List Char × List Char := s.span Char.isDigit

/-- The digits after a point, if a point and a digit come next. -/
def fraction? : List Char → Option (List Char × List Char)
  | '.' :: rest =>
      match digitsOf rest with
      | ([], _) => none
      | (digits, rest) => some (digits, rest)
  | _ => none

/-- The exponent after its letter, if a letter, maybe a sign, and a digit come next. -/
def exponent? : List Char → Option (Int × List Char)
  | e :: rest =>
      if e = 'e' ∨ e = 'E' then
        let (negative, rest) := match rest with
          | '-' :: rest => (true, rest)
          | '+' :: rest => (false, rest)
          | rest => (false, rest)
        match digitsOf rest with
        | ([], _) => none
        | (digits, rest) =>
            let n : Int := decimalNumber digits
            some (if negative then -n else n, rest)
      else none
  | [] => none

/-- A number after its sign. A number without fraction and exponent is an integer. -/
def number (negative : Bool) (s : List Char) : Except ReadError (Value × List Char) :=
  let (whole, rest) := match digitsOf s with
    | ('0' :: _, _) => (['0'], s.drop 1)
    | found => found
  if whole.isEmpty then .error .malformed
  else
    match fraction? rest, exponent? rest with
    | none, none =>
        if whole.length > digitLimit then .error (.tooManyDigits whole.length)
        else
          let n : Int := decimalNumber whole
          .ok (.int (if negative then -n else n), rest)
    | none, some (e, rest) =>
        .ok (.float (.ofDecimal negative (decimalNumber whole) e), rest)
    | some (part, rest), _ =>
        let digits := decimalNumber (whole ++ part)
        match exponent? rest with
        | none => .ok (.float (.ofDecimal negative digits (-part.length)), rest)
        | some (e, rest) => .ok (.float (.ofDecimal negative digits (e - part.length)), rest)

def words : List (String × Value) :=
  [("null", .null), ("true", .bool true), ("false", .bool false), ("NaN", .float (.nan 0)),
    ("Infinity", .float (.infinite false)), ("-Infinity", .float (.infinite true))]

def scalar (s : List Char) : Except ReadError (Value × List Char) :=
  match words.findSome? fun (word, v) => (afterWord? word s).map (v, ·) with
  | some found => .ok found
  | none =>
      match s with
      | '-' :: rest => number true rest
      | _ => number false s

mutual

def value : Nat → List Char → Except ReadError (Value × List Char)
  | 0, _ => .error .malformed
  | fuel + 1, s =>
      match s with
      | '"' :: rest =>
          match string? rest with
          | some (text, rest) => .ok (.str text, rest)
          | none => .error .malformed
      | '[' :: rest =>
          match skipBlank rest with
          | ']' :: rest => .ok (.list [], rest)
          | rest => do
              let (items, rest) ← items fuel rest
              return (.list items, rest)
      | '\x7b' :: rest =>
          match skipBlank rest with
          | '\x7d' :: rest => .ok (.object [], rest)
          | rest => do
              let (members, rest) ← members fuel [] rest
              return (.object members, rest)
      | s => scalar s

def items : Nat → List Char → Except ReadError (List Value × List Char)
  | 0, _ => .error .malformed
  | fuel + 1, s => do
      let (first, rest) ← value fuel s
      match skipBlank rest with
      | ']' :: rest => return ([first], rest)
      | ',' :: rest =>
          let (others, rest) ← items fuel (skipBlank rest)
          return (first :: others, rest)
      | _ => .error .malformed

/-- Members up to the closing brace, written after those read before. -/
def members : Nat → Entries → List Char → Except ReadError (Entries × List Char)
  | 0, _, _ => .error .malformed
  | fuel + 1, before, s =>
      match s with
      | '"' :: rest =>
          match string? rest with
          | none => .error .malformed
          | some (name, rest) =>
              match skipBlank rest with
              | ':' :: rest => do
                  let (v, rest) ← value fuel (skipBlank rest)
                  let now := Entries.put before (.str name) v
                  match skipBlank rest with
                  | '\x7d' :: rest => return (now, rest)
                  | ',' :: rest => members fuel now (skipBlank rest)
                  | _ => .error .malformed
              | _ => .error .malformed
      | _ => .error .malformed

end

def read (s : List Char) : Except ReadError Value := do
  let (v, rest) ← value (2 * s.length + 2) (skipBlank s)
  if (skipBlank rest).isEmpty then return v else .error .malformed

end FunctionPipeline.Json

/-!
Tags, and the tag that an untagged plain scalar has by its text: `yes` is a boolean, `0x1F` an
integer, `1:30` one in base sixty, `1.5` a float, `2020-01-01` a day, `~` null.
-/

namespace FunctionPipeline.Yaml

/-- The kinds of node that have a tag of the standard, and all other tags. -/
inductive Tag where
  | null
  | bool
  | int
  | float
  | binary
  | timestamp
  | omap
  | pairs
  | set
  | str
  | seq
  | map
  | merge
  | value
  | other (name : String)
  deriving DecidableEq, Repr, Inhabited

def standardTags : String := "tag:yaml.org,2002:"

def Tag.named : List (String × Tag) :=
  [("null", .null), ("bool", .bool), ("int", .int), ("float", .float), ("binary", .binary),
    ("timestamp", .timestamp), ("omap", .omap), ("pairs", .pairs), ("set", .set), ("str", .str),
    ("seq", .seq), ("map", .map), ("merge", .merge), ("value", .value)]

def Tag.ofName (name : String) : Tag :=
  match Tag.named.find? fun e => standardTags ++ e.1 == name with
  | some e => e.2
  | none => .other name

namespace Plain

def isDigitOrLine (c : Char) : Bool := c.isDigit || c = '_'

/-- What follows a sign, if there is one, else the text. -/
def afterSign : List Char → List Char
  | '+' :: rest => rest
  | '-' :: rest => rest
  | s => s

/-- Digits, then nothing: one at least. -/
def allDigits (s : List Char) : Bool := !s.isEmpty && s.all Char.isDigit

def isExponent : List Char → Bool
  | [] => true
  | e :: sign :: digits => (e = 'e' || e = 'E') && (sign = '+' || sign = '-') && allDigits digits
  | _ => false

/-- A digit and then digits and underscores in front of a text, and the rest of it. -/
def digitRun? : List Char → Option (List Char)
  | c :: rest => if c.isDigit then some (rest.dropWhile isDigitOrLine) else none
  | [] => none

/-- Groups of one or two digits below sixty, each after a colon, one at least. -/
def sexagesimalGroups : List Char → Option (List Char)
  | ':' :: a :: b :: rest =>
      if a.isDigit && a < '6' && b.isDigit then
        some ((sexagesimalGroups rest).getD rest)
      else if a.isDigit then some ((sexagesimalGroups (b :: rest)).getD (b :: rest))
      else none
  | [':', a] => if a.isDigit then some [] else none
  | _ => none

def isDecimalFloat (s : List Char) : Bool :=
  match digitRun? s with
  | some ('.' :: rest) => isExponent (rest.dropWhile isDigitOrLine)
  | _ => false

def isPointFloat : List Char → Bool
  | '.' :: rest =>
      match digitRun? rest with
      | some rest => isExponent rest
      | none => false
  | _ => false

/-- Base sixty with a point after the last group. -/
def isSexagesimalFloat (s : List Char) : Bool :=
  match (digitRun? s).bind sexagesimalGroups with
  | some ('.' :: rest) => rest.all isDigitOrLine
  | _ => false

def isFloat (s : List Char) : Bool :=
  isDecimalFloat (afterSign s) || isPointFloat s || isSexagesimalFloat (afterSign s) ||
    [".inf", ".Inf", ".INF"].contains (String.ofList (afterSign s)) ||
    [".nan", ".NaN", ".NAN"].contains (String.ofList s)

/-- One at least, and all of a kind. -/
def someAll (p : Char → Bool) (s : List Char) : Bool := !s.isEmpty && s.all p

def isHexOrLine (c : Char) : Bool :=
  isDigitOrLine c || ('a' ≤ c && c ≤ 'f') || ('A' ≤ c && c ≤ 'F')

/-- The forms of an unsigned integer: binary, octal, zero, hexadecimal, decimal, base sixty. -/
def isUnsigned : List Char → Bool
  | '0' :: 'b' :: rest => someAll (fun c => c = '0' || c = '1' || c = '_') rest
  | '0' :: 'x' :: rest => someAll isHexOrLine rest
  | ['0'] => true
  | '0' :: rest => rest.all fun c => ('0' ≤ c && c ≤ '7') || c = '_'
  | c :: rest =>
      c.isDigit &&
        let rest := rest.dropWhile isDigitOrLine
        rest.isEmpty || sexagesimalGroups rest == some []
  | [] => false

def isInt (s : List Char) : Bool := isUnsigned (afterSign s)

def truths : List (String × Bool) :=
  [("yes", true), ("Yes", true), ("YES", true), ("no", false), ("No", false), ("NO", false),
    ("true", true), ("True", true), ("TRUE", true), ("false", false), ("False", false),
    ("FALSE", false), ("on", true), ("On", true), ("ON", true), ("off", false), ("Off", false),
    ("OFF", false)]

def nulls : List String := ["", "~", "null", "Null", "NULL"]

/-- A number of digits, at least `least` and at most `most`, in front of a text. -/
def digits? (least most : Nat) (s : List Char) : Option (List Char × List Char) :=
  let found := (s.take most).takeWhile Char.isDigit
  if least ≤ found.length then some (found, s.drop found.length) else none

def after? (c : Char) : List Char → Option (List Char)
  | d :: rest => if c = d then some rest else none
  | [] => none

inductive Zone where
  | none
  | universal
  | offset (negative : Bool) (hours minutes : List Char)
  deriving DecidableEq, Repr

structure Timestamp where
  year : List Char
  month : List Char
  day : List Char
  /-- Hour, minute, second and the digits of the fraction. -/
  time : Option (List Char × List Char × List Char × List Char)
  zone : Zone
  deriving DecidableEq, Repr

def skipBlanks (s : List Char) : List Char := s.dropWhile fun c => c = ' ' || c = '\t'

def zone? (s : List Char) : Option Zone :=
  if s.isEmpty then some .none
  else
    match skipBlanks s with
    | ['Z'] => some .universal
    | sign :: rest =>
        if sign = '+' ∨ sign = '-' then do
          let (hours, rest) ← digits? 1 2 rest
          match rest with
          | [] => some (.offset (sign = '-') hours [])
          | _ => do
              let (minutes, rest) ← digits? 2 2 (← after? ':' rest)
              if rest.isEmpty then some (.offset (sign = '-') hours minutes) else none
        else none
    | [] => none

def time? (s : List Char) :
    Option ((List Char × List Char × List Char × List Char) × List Char) := do
  let rest ← match s with
    | c :: rest =>
        if c = 'T' ∨ c = 't' then some rest
        else if c = ' ' ∨ c = '\t' then some (skipBlanks s)
        else none
    | [] => none
  let (hour, rest) ← digits? 1 2 rest
  let (minute, rest) ← digits? 2 2 (← after? ':' rest)
  let (second, rest) ← digits? 2 2 (← after? ':' rest)
  match rest with
  | '.' :: rest =>
      let (part, rest) := rest.span Char.isDigit
      return ((hour, minute, second, part), rest)
  | rest => return ((hour, minute, second, []), rest)

/-- A day alone or with a time; month and day have one digit or two. -/
def timestamp? (s : List Char) : Option Timestamp := do
  let (year, rest) ← digits? 4 4 s
  let (month, rest) ← digits? 1 2 (← after? '-' rest)
  let (day, rest) ← digits? 1 2 (← after? '-' rest)
  if rest.isEmpty then return ⟨year, month, day, none, .none⟩
  let (time, rest) ← time? rest
  let zone ← zone? rest
  return ⟨year, month, day, some time, zone⟩

/-- The forms of a timestamp that need no tag: a day alone has all its ten characters. -/
def isTimestamp (s : List Char) : Bool :=
  match timestamp? s with
  | some t => t.time.isSome || s.length == 10
  | none => false

def tagOfLine (s : List Char) : Tag :=
  let text := String.ofList s
  if truths.any (·.1 == text) then .bool
  else if isFloat s then .float
  else if isInt s then .int
  else if text == "<<" then .merge
  else if nulls.contains text then .null
  else if isTimestamp s then .timestamp
  else if text == "=" then .value
  else if ["!", "&", "*"].contains text then .other (standardTags ++ "yaml")
  else .str

/-- The tag that a text has as a plain scalar. One line end after it makes no difference, but for
the empty text. -/
def tag (s : List Char) : Tag :=
  match s.getLast? with
  | some '\n' => if s.length == 1 then .str else tagOfLine s.dropLast
  | _ => tagOfLine s

end Plain

end FunctionPipeline.Yaml

import FunctionPipeline.Decimal.Shortest
import FunctionPipeline.Document.Value
import FunctionPipeline.Text.Pieces
import FunctionPipeline.Text.Quoted

/-!
Values as messages show them: `Value.literal` in a form that tells types apart, `Value.text` with
a bare text for texts and days and without a word of access for mappings.
-/

namespace FunctionPipeline

def spanLiteral (seconds : Int) : String :=
  let days := Int.fdiv seconds 86400
  let rest := Int.fmod seconds 86400
  let parts := (if days = 0 then [] else [s!"days={days}"]) ++
    (if rest = 0 then [] else [s!"seconds={rest}"])
  "datetime.timedelta(" ++ (if parts.isEmpty then "0" else joined ", " parts) ++ ")"

def Date.literal (d : Date) : String := s!"datetime.date({d.year}, {d.month}, {d.day})"

/-- A moment as a literal; trailing parts that are zero are left out after the minute. -/
def Moment.literal (t : Moment) : String :=
  let parts := [t.date.year, t.date.month, t.date.day, t.hour, t.minute] ++
    (if t.microsecond ≠ 0 then [t.second, t.microsecond]
     else if t.second ≠ 0 then [t.second] else [])
  let zone := match t.offset with
    | none => ""
    | some 0 => ", tzinfo=datetime.timezone.utc"
    | some offset => s!", tzinfo=datetime.timezone({spanLiteral offset})"
  "datetime.datetime(" ++ joined ", " (parts.map toString) ++ zone ++ ")"

namespace Value

mutual

/-- The literal form below the given enclosing containers, the nearest first. -/
def literalIn (around : List String) : Value → String
  | .null => "None"
  | .bool b => if b then "True" else "False"
  | .int i => toString i
  | .float x => NumberStyle.plain.text x
  | .str s => Quoted.text s
  | .bytes octets => Quoted.octets octets
  | .date d => d.literal
  | .moment t => t.literal
  | .foreign _ => "<object object>"
  | .set [] => "set()"
  | .set members => "\x7b" ++ joined ", " (literals around members) ++ "\x7d"
  | .sequence .writable items => "[" ++ joined ", " (literals ("[...]" :: around) items) ++ "]"
  | .sequence .readOnly [item] => "(" ++ literalIn ("(...)" :: around) item ++ ",)"
  | .sequence .readOnly items => "(" ++ joined ", " (literals ("(...)" :: around) items) ++ ")"
  | .mapping .writable entries =>
      "\x7b" ++ joined ", " (entryLiterals ("\x7b...\x7d" :: around) entries) ++ "\x7d"
  | .mapping .readOnly entries =>
      "mappingproxy(\x7b" ++
        joined ", " (entryLiterals ("mappingproxy(\x7b...\x7d)" :: around) entries) ++ "\x7d)"
  | .enclosing levels => (around[levels - 1]?).getD "..."

def literals (around : List String) : List Value → List String
  | [] => []
  | x :: xs => literalIn around x :: literals around xs

def entryLiterals (around : List String) : List (Value × Value) → List String
  | [] => []
  | (k, v) :: es => (literalIn around k ++ ": " ++ literalIn around v) :: entryLiterals around es

end

def literal (v : Value) : String := v.literalIn []

/-- The text of a value: a text itself, a day or moment in its written form, a mapping as a
writable one, else the literal. -/
def text : Value → String
  | .str s => s
  | .date d => d.text
  | .moment t => t.text " "
  | .mapping _ entries => literal (.object entries)
  | v => v.literal

end Value

end FunctionPipeline

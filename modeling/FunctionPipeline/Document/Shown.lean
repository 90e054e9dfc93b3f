import FunctionPipeline.Decimal.Length
import FunctionPipeline.Fault

/-!
Values shown in messages and other texts. An integer with too many digits is not written out, and
neither is a value that holds one anywhere; what else there is is shown as `Value.text` and
`Value.literal` say.
-/

namespace FunctionPipeline

/-- An integer in decimal, if it has not too many digits. -/
def shownInteger (i : Int) : Except Fault String :=
  if isLongInteger i then .error .longInteger else .ok (toString i)

namespace Value

mutual

/-- Whether a value holds an integer with too many digits to be written. -/
def hasLongInteger : Value → Bool
  | .int i => isLongInteger i
  | .set members => anyLongInteger members
  | .sequence _ items => anyLongInteger items
  | .mapping _ entries => entryLongInteger entries
  | _ => false

def anyLongInteger : List Value → Bool
  | [] => false
  | x :: xs => hasLongInteger x || anyLongInteger xs

def entryLongInteger : List (Value × Value) → Bool
  | [] => false
  | (k, v) :: es => hasLongInteger k || hasLongInteger v || entryLongInteger es

end

def shown (v : Value) : Except Fault String :=
  if v.hasLongInteger then .error .longInteger else .ok v.text

def shownLiteral (v : Value) : Except Fault String :=
  if v.hasLongInteger then .error .longInteger else .ok v.literal

/-- A text is shown as it is. -/
theorem shown_str (s : String) : (Value.str s).shown = .ok s := by
  simp [shown, hasLongInteger, text]

end Value

end FunctionPipeline

import FunctionPipeline.Decimal.Shortest
import FunctionPipeline.Fault

/-!
How long something took: hundredths below a second, whole seconds below a minute, else minutes
and seconds.
-/

namespace FunctionPipeline.Duration

def minutesText (minutes seconds : Int) : String := s!"{minutes}m {seconds}s"

def ofInt (seconds : Int) : Except Fault String :=
  if seconds < 1 then
    match Binary64.ofInt? seconds with
    | some x => .ok (Fixed.text 2 x ++ "s")
    | none => .error .overflow
  else if seconds < 60 then .ok s!"{seconds}s"
  else .ok (minutesText (seconds / 60) (seconds % 60))

/-- A minute in the unit of doubles. -/
def minute : Nat := 60 * Binary64.unit

/-- The whole minutes in a value in units, with each step of the division rounded to a double. -/
def minutes (value : Nat) : Nat :=
  match Binary64.ofScaled false (value - value % minute : Nat) 1 with
  | .finite _ whole =>
      match Binary64.ofRatio false (Binary64.units whole) minute with
      | .finite _ quotient =>
          let units := Binary64.units quotient
          let rest := units % Binary64.unit
          units / Binary64.unit + (if 2 * rest > Binary64.unit then 1 else 0)
      | _ => 0
  | _ => 0

def ofDouble (seconds : Binary64) : Except Fault String :=
  match seconds with
  | .infinite true => .ok (Fixed.text 2 seconds ++ "s")
  | .infinite false | .nan _ => .error (.badValue "cannot convert float NaN to integer")
  | .finite negative rank =>
      let value := Binary64.units rank
      if negative || value < Binary64.unit then .ok (Fixed.text 2 seconds ++ "s")
      else if value < minute then .ok s!"{value / Binary64.unit}s"
      else .ok (minutesText (minutes value) (value % minute / Binary64.unit : Nat))

def text : Value → Except Fault String
  | .bool b => ofInt (if b then 1 else 0)
  | .int seconds => ofInt seconds
  | .float seconds => ofDouble seconds
  | v => .error (.unordered v.typeName "int")

end FunctionPipeline.Duration

import FunctionPipeline.Fault

/-!
The order of values. Texts and octets are in the order of their first difference, numbers by value
whatever their type, days by the calendar, and sequences of one kind in the order of the first items
that differ. Other values have no order, and a not-a-number is before nothing.
-/

namespace FunctionPipeline

/-- Whether octets are before others: a start of others is before them. -/
def octetsPrecede : List UInt8 → List UInt8 → Bool
  | _, [] => false
  | [], _ :: _ => true
  | a :: as, b :: bs => if a = b then octetsPrecede as bs else a < b

namespace Value

/-- Booleans count as numbers. -/
def isNumber : Value → Bool
  | .bool _ | .int _ | .float _ => true
  | _ => false

def numberPrecedes (v w : Value) : Bool :=
  match v.position?, w.position? with
  | some p, some q => p.before q
  | _, _ => false

mutual

def precedes : Value → Value → Except Fault Bool
  | .str s, .str t => .ok (s < t)
  | .bytes s, .bytes t => .ok (octetsPrecede s t)
  | .date d, .date e => .ok (d.ordinal < e.ordinal)
  | .sequence .writable xs, .sequence .writable ys => itemsPrecede xs ys
  | .sequence .readOnly xs, .sequence .readOnly ys => itemsPrecede xs ys
  | v, w =>
      if v.isNumber && w.isNumber then .ok (numberPrecedes v w)
      else .error (.unordered v.typeName w.typeName)

def itemsPrecede : List Value → List Value → Except Fault Bool
  | _, [] => .ok false
  | [], _ :: _ => .ok true
  | x :: xs, y :: ys => if x.equals y then itemsPrecede xs ys else precedes x y

end

end Value

end FunctionPipeline

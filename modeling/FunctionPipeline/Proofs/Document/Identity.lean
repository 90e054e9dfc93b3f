import FunctionPipeline.Invocation.Request
import FunctionPipeline.Manifest.Basic

/-!
Values can be told apart: two of them are the same if they are so part by part, which can be tried
out, and so it is with failures and with the records that hold values. This is finer than
`Value.equals`, which looks at contents only. What an operation gives, or fails with, can be tried
out by it.
-/

namespace FunctionPipeline

namespace Value

mutual

def same : Value → Value → Bool
  | .null, .null => true
  | .bool a, .bool b => a == b
  | .int i, .int j => i == j
  | .float x, .float y => x == y
  | .str s, .str t => s == t
  | .bytes s, .bytes t => s == t
  | .date d, .date e => d == e
  | .moment s, .moment t => s == t
  | .foreign m, .foreign n => m == n
  | .set xs, .set ys => sameAll xs ys
  | .sequence a xs, .sequence b ys => a == b && sameAll xs ys
  | .mapping a es, .mapping b fs => a == b && sameEntries es fs
  | .enclosing m, .enclosing n => m == n
  | _, _ => false

def sameAll : List Value → List Value → Bool
  | [], [] => true
  | x :: xs, y :: ys => same x y && sameAll xs ys
  | _, _ => false

def sameEntries : List (Value × Value) → List (Value × Value) → Bool
  | [], [] => true
  | (k, v) :: es, (l, w) :: fs => same k l && same v w && sameEntries es fs
  | _, _ => false

end

mutual

theorem same_iff : ∀ v w : Value, same v w = true ↔ v = w
  | .null, w | .bool _, w | .int _, w | .float _, w | .str _, w | .bytes _, w | .date _, w
  | .moment _, w | .foreign _, w | .enclosing _, w => by cases w <;> simp [same]
  | .set xs, w => by
      cases w with
      | set ys => simp only [same, sameAll_iff xs ys, set.injEq]
      | _ => simp [same]
  | .sequence a xs, w => by
      cases w with
      | sequence b ys =>
          simp only [same, Bool.and_eq_true, beq_iff_eq, sameAll_iff xs ys, sequence.injEq]
      | _ => simp [same]
  | .mapping a es, w => by
      cases w with
      | mapping b fs =>
          simp only [same, Bool.and_eq_true, beq_iff_eq, sameEntries_iff es fs, mapping.injEq]
      | _ => simp [same]

theorem sameAll_iff : ∀ xs ys : List Value, sameAll xs ys = true ↔ xs = ys
  | [], ys => by cases ys <;> simp [sameAll]
  | x :: xs, ys => by
      cases ys with
      | nil => simp [sameAll]
      | cons y ys =>
          simp only [sameAll, Bool.and_eq_true, same_iff x y, sameAll_iff xs ys, List.cons.injEq]

theorem sameEntries_iff : ∀ es fs : List (Value × Value), sameEntries es fs = true ↔ es = fs
  | [], fs => by cases fs <;> simp [sameEntries]
  | (k, v) :: es, fs => by
      cases fs with
      | nil => simp [sameEntries]
      | cons f fs =>
          obtain ⟨l, w⟩ := f
          simp only [sameEntries, Bool.and_eq_true, same_iff k l, same_iff v w,
            sameEntries_iff es fs, List.cons.injEq, Prod.mk.injEq]

end

instance : DecidableEq Value := fun v w => decidable_of_iff _ (same_iff v w)

end Value

deriving instance DecidableEq for Fault, Location, EncodeError, SerializationError, ConfigError,
  Failure

deriving instance DecidableEq for FunctionInput, Step, Manifest

deriving instance DecidableEq for Resource, State, Request

def errorOf? {ε α : Type} : Except ε α → Option ε
  | .error e => some e
  | .ok _ => none

theorem error_of_errorOf? {ε α : Type} {r : Except ε α} {e : ε} (h : errorOf? r = some e) :
    r = .error e := by
  cases r with
  | error cause => cases h; rfl
  | ok x => cases h

theorem ok_of_toOption {ε α : Type} {r : Except ε α} {x : α} (h : r.toOption = some x) :
    r = .ok x := by
  cases r with
  | error e => cases h
  | ok y => cases h; rfl

end FunctionPipeline

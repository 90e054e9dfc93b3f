import FunctionPipeline.Json.Reader
import FunctionPipeline.Proofs.Document.JsonValues
import FunctionPipeline.Proofs.Document.LongIntegers
import FunctionPipeline.Proofs.Document.TextKeys
import FunctionPipeline.Proofs.Tool.Operations
import Mathlib.Algebra.Group.Nat.Defs
import Mathlib.Data.List.TakeDrop
import Mathlib.Data.List.TakeWhile

/-!
What JSON text can write: trees, none of whose integers is too long to be shown, since the reader
refuses what the writer would.
-/

namespace FunctionPipeline

namespace Entries

theorem IsShown.put {es : Entries} (h : IsShown es) (name : String) {v : Value} (hv : v.IsShown) :
    IsShown (put es (.str name) v) :=
  isShown_iff.mpr (forall_mem_put_str (isShown_iff.mp h) ⟨rfl, hv⟩)

end Entries

theorem Value.isShown_sequence {access : Access} {items : List Value}
    (h : ∀ x ∈ items, x.IsShown) : (Value.sequence access items).IsShown :=
  ⟨anyReference_eq_false_iff.mpr fun x hx => (h x hx).1,
    areShort_iff.mpr fun x hx => (h x hx).2⟩

namespace Json

private theorem foldl_digits_lt {s : List Char} (hdigits : ∀ c ∈ s, c.isDigit = true) (n k : Nat)
    (h : n < 10 ^ k) : s.foldl (fun n c => n * 10 + (c.toNat - 48)) n < 10 ^ (k + s.length) := by
  induction s generalizing n k with
  | nil => exact h
  | cons c s ih =>
      have hc : c.toNat - 48 < 10 := by
        have hdigit := hdigits c (by simp)
        simp only [Char.isDigit, Bool.and_eq_true, decide_eq_true_eq] at hdigit
        have hle : c.toNat ≤ 57 := hdigit.2
        omega
      have hnext : n * 10 + (c.toNat - 48) < 10 ^ (k + 1) := by
        rw [Nat.pow_succ]
        omega
      have hrest := ih (fun d hd => hdigits d (by simp [hd])) _ _ hnext
      rwa [Nat.add_assoc, Nat.add_comm 1] at hrest

/-- A number has no more digits than it is written with. -/
theorem decimalNumber_lt {s : List Char} (hdigits : ∀ c ∈ s, c.isDigit = true) :
    decimalNumber s < 10 ^ s.length := by
  have h := foldl_digits_lt hdigits 0 0 (by simp)
  rwa [Nat.zero_add] at h

theorem hasMoreDigits_of_lt {count n : Nat} (h : n < 10 ^ count) :
    hasMoreDigits count n = false := by
  rw [Bool.eq_false_iff]
  intro hmore
  exact Nat.not_lt.mpr ((hasMoreDigits_iff count n).mp hmore) h

private theorem isDigit_whole {s whole rest : List Char}
    (h : (match digitsOf s with | ('0' :: _, _) => (['0'], s.drop 1) | found => found) =
      (whole, rest)) : ∀ c ∈ whole, c.isDigit = true := by
  split at h
  next =>
    cases h
    simp
  next found _ =>
    have hwhole : whole = s.takeWhile Char.isDigit := by
      rw [digitsOf, List.span_eq_takeWhile_dropWhile] at h
      cases h
      rfl
    rw [hwhole]
    intro c hc
    exact List.mem_takeWhile_imp hc

/-- A number is a fraction, or an integer that is not too long. -/
theorem number_cases {negative : Bool} {s rest : List Char} {v : Value}
    (h : number negative s = .ok (v, rest)) :
    (∃ x, v = .float x) ∨ ∃ i, v = .int i ∧ isLongInteger i = false := by
  unfold number at h
  split at h
  rename_i whole after hwhole
  have hdigits := isDigit_whole hwhole
  split at h
  next => cases h
  next =>
    split at h
    next =>
      split at h
      next => cases h
      next hcount =>
        cases h
        refine Or.inr ⟨_, rfl, hasMoreDigits_of_lt ?_⟩
        have hlt := decimalNumber_lt hdigits
        have hpower : 10 ^ whole.length ≤ 10 ^ digitLimit :=
          Nat.pow_le_pow_right (by decide) (Nat.le_of_not_gt hcount)
        have habs : (if negative = true then -(decimalNumber whole : Int)
            else decimalNumber whole).natAbs = decimalNumber whole := by
          split <;> simp
        rw [habs]
        exact Nat.lt_of_lt_of_le hlt hpower
    next =>
      cases h
      exact Or.inl ⟨_, rfl⟩
    next =>
      split at h <;> cases h <;> exact Or.inl ⟨_, rfl⟩

/-- A word or number is null, a boolean, a fraction, or an integer that is not too long. -/
theorem scalar_cases {s rest : List Char} {v : Value} (h : scalar s = .ok (v, rest)) :
    v = .null ∨ (∃ b, v = .bool b) ∨ (∃ x, v = .float x) ∨
      ∃ i, v = .int i ∧ isLongInteger i = false := by
  unfold scalar at h
  split at h
  next found hfound =>
    cases h
    obtain ⟨word, hword, hafter⟩ := List.exists_of_findSome?_eq_some hfound
    obtain ⟨_, -, hend⟩ := Option.map_eq_some_iff.mp hafter
    cases hend
    have hwords : ∀ e ∈ words, e.2 = .null ∨ (∃ b, e.2 = .bool b) ∨ ∃ x, e.2 = .float x := by
      simp [words]
    rcases hwords word hword with hnull | hbool | hfloat
    · exact Or.inl hnull
    · exact Or.inr (Or.inl hbool)
    · exact Or.inr (Or.inr (Or.inl hfloat))
  next =>
    split at h
    · exact Or.inr (Or.inr (number_cases h))
    · exact Or.inr (Or.inr (number_cases h))

theorem isShown_of_scalar {s rest : List Char} {v : Value} (h : scalar s = .ok (v, rest)) :
    v.IsShown := by
  rcases scalar_cases h with rfl | ⟨b, rfl⟩ | ⟨x, rfl⟩ | ⟨i, rfl, hshort⟩
  · exact ⟨rfl, rfl⟩
  · exact ⟨rfl, rfl⟩
  · exact ⟨rfl, rfl⟩
  · exact ⟨rfl, hshort⟩

/-- With so much fuel, what is read in front of a text has a property, and so have the entries that
are read after those before them. -/
structure Reads (P : Value → Prop) (Q : Entries → Prop) (fuel : Nat) : Prop where
  value {s rest : List Char} {v : Value} : value fuel s = .ok (v, rest) → P v
  items {s rest : List Char} {vs : List Value} : items fuel s = .ok (vs, rest) → ∀ v ∈ vs, P v
  members {before es : Entries} {s rest : List Char} :
    Q before → members fuel before s = .ok (es, rest) → Q es

section Induction

variable {P : Value → Prop} {Q : Entries → Prop} {fuel : Nat} {s rest : List Char}

theorem Reads.value_succ (ih : Reads P Q fuel)
    (hscalar : ∀ {s v rest}, scalar s = .ok (v, rest) → P v) (htext : ∀ s, P (.str s))
    (hlist : ∀ items, (∀ x ∈ items, P x) → P (.list items))
    (hobject : ∀ es, Q es → P (.object es)) (hnil : Q []) {v : Value}
    (h : Json.value (fuel + 1) s = .ok (v, rest)) : P v := by
  unfold Json.value at h
  split at h
  next =>
    split at h
    next =>
      cases h
      exact htext _
    next => cases h
  next =>
    split at h
    next =>
      cases h
      exact hlist [] (by simp)
    next =>
      obtain ⟨⟨found, _⟩, hfound, hend⟩ := ok_of_bind h
      cases hend
      exact hlist found (ih.items hfound)
  next =>
    split at h
    next =>
      cases h
      exact hobject [] hnil
    next =>
      obtain ⟨⟨found, _⟩, hfound, hend⟩ := ok_of_bind h
      cases hend
      exact hobject found (ih.members hnil hfound)
  next => exact hscalar h

theorem Reads.items_succ (ih : Reads P Q fuel) {vs : List Value}
    (h : Json.items (fuel + 1) s = .ok (vs, rest)) : ∀ v ∈ vs, P v := by
  unfold Json.items at h
  obtain ⟨⟨first, after⟩, hfirst, hrest⟩ := ok_of_bind h
  simp only at hrest
  split at hrest
  next =>
    cases hrest
    simpa using ih.value hfirst
  next =>
    obtain ⟨⟨others, _⟩, hothers, hend⟩ := ok_of_bind hrest
    cases hend
    simpa using ⟨ih.value hfirst, ih.items hothers⟩
  next => cases hrest

theorem Reads.members_succ (ih : Reads P Q fuel)
    (hput : ∀ es name v, Q es → P v → Q (Entries.put es (.str name) v)) {before es : Entries}
    (hbefore : Q before) (h : Json.members (fuel + 1) before s = .ok (es, rest)) : Q es := by
  unfold Json.members at h
  split at h
  next =>
    split at h
    next => cases h
    next name after hname =>
      split at h
      next =>
        obtain ⟨⟨v, _⟩, hv, hrest⟩ := ok_of_bind h
        have hnow := hput _ name v hbefore (ih.value hv)
        simp only at hrest
        split at hrest
        next =>
          cases hrest
          exact hnow
        next => exact ih.members hnow hrest
        next => cases hrest
      next => cases h
  next => cases h

variable (hscalar : ∀ {s v rest}, scalar s = .ok (v, rest) → P v) (htext : ∀ s, P (.str s))
  (hlist : ∀ items, (∀ x ∈ items, P x) → P (.list items))
  (hobject : ∀ es, Q es → P (.object es)) (hnil : Q [])
  (hput : ∀ es name v, Q es → P v → Q (Entries.put es (.str name) v))

include hscalar htext hlist hobject hnil hput

theorem reads (fuel : Nat) : Reads P Q fuel := by
  induction fuel with
  | zero => constructor <;> intros <;> contradiction
  | succ fuel ih =>
      constructor
      · exact ih.value_succ hscalar htext hlist hobject hnil
      · exact ih.items_succ
      · exact ih.members_succ hput

/-- What a text writes has every property that scalars and texts have and that passes from items to
lists and from values, written one after the other under their names, to objects. -/
theorem holds_of_read {v : Value} (h : read s = .ok v) : P v := by
  obtain ⟨⟨found, _⟩, hfound, hrest⟩ := ok_of_bind h
  simp only at hrest
  split at hrest
  next =>
    cases hrest
    exact (reads hscalar htext hlist hobject hnil hput _).value hfound
  next => cases hrest

end Induction

/-- What a text writes is a tree whose integers can all be shown. -/
theorem isShown_of_read {s : List Char} {v : Value} (h : read s = .ok v) : v.IsShown :=
  holds_of_read isShown_of_scalar (fun _ => ⟨rfl, rfl⟩) (fun _ => Value.isShown_sequence)
    (fun _ => Entries.isShown_mapping.mpr) Entries.isShown_nil
    (fun _ name _ hes hv => hes.put name hv) h

inductive IsValue : Value → Prop
  | null : IsValue .null
  | bool (b : Bool) : IsValue (.bool b)
  | int (n : Int) : IsValue (.int n)
  | float (x : Binary64) : IsValue (.float x)
  | str (s : String) : IsValue (.str s)
  | list {items : List Value} (h : ∀ x ∈ items, IsValue x) : IsValue (.list items)
  | object {es : Entries} (hkeys : ∀ e ∈ es, ∃ name, e.1 = .str name) (h : ∀ e ∈ es, IsValue e.2) :
      IsValue (.object es)

theorem isValue_of_scalar {s rest : List Char} {v : Value} (h : scalar s = .ok (v, rest)) :
    IsValue v := by
  rcases scalar_cases h with rfl | ⟨b, rfl⟩ | ⟨x, rfl⟩ | ⟨i, rfl, -⟩
  · exact .null
  · exact .bool b
  · exact .float x
  · exact .int i

theorem isValue_of_read {s : List Char} {v : Value} (h : read s = .ok v) : IsValue v :=
  holds_of_read (Q := fun es => ∀ e ∈ es, (∃ name, e.1 = .str name) ∧ IsValue e.2)
    isValue_of_scalar .str (fun _ => .list)
    (fun _ hes => .object (fun e he => (hes e he).1) fun e he => (hes e he).2) (by simp)
    (fun _ name _ hes hv => Entries.forall_mem_put_str hes ⟨⟨name, rfl⟩, hv⟩) h

/-- It is a JSON value in the encoder's sense, unless a number in it is not finite. -/
theorem IsValue.isJson {v : Value} (h : IsValue v) (hfinite : v.hasFiniteNumbers = true) :
    v.isJson = true := by
  induction h with
  | null | bool | int | str => rfl
  | float => exact hfinite
  | list _ ih =>
      exact Value.allJson_iff.mpr fun x hx =>
        ih x hx (Value.allFiniteNumbers_iff.mp hfinite x hx)
  | object hkeys _ ih =>
      exact Entries.isJson_iff.mpr fun e he =>
        ⟨hkeys e he, ih e he (Value.entriesFiniteNumbers_iff.mp hfinite e he)⟩

end Json

end FunctionPipeline

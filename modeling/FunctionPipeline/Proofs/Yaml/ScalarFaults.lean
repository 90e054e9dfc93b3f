import FunctionPipeline.Yaml.ScalarValue

/-!
The faults of scalars. A reading either gives something, finds the text malformed or ends in a
fault; `Yields` says what the first and the last can be. The readers of scalars, and what makes
values of their texts, have few faults, which `Fault.OfScalar` lists.
-/

namespace FunctionPipeline

/-- What can be wrong with a scalar or a version in a well-formed text. -/
inductive Fault.OfScalar : Fault → Prop where
  | badValue (message : String) : OfScalar (.badValue message)
  | tooManyDigits (count : Nat) : OfScalar (.tooManyDigits count)
  | overflow : OfScalar .overflow
  | noSuchWord (word : String) : OfScalar (.noSuchKey (.str word))
  | noTimestamp : OfScalar (.noAttribute "NoneType" "groupdict")
  | noText : OfScalar (.notText "list")
  | empty : OfScalar (.indexOutOfRange "str")
  /-- A mapping stands for its own text. -/
  | endless : OfScalar .endless

namespace Yaml

variable {α β : Type} {p : α → Prop} {p' : β → Prop} {q : Fault → Prop}

/-- A reading that gives what has one property and has no faults but those with another. -/
structure Yields (p : α → Prop) (q : Fault → Prop) (reading : Except ReadError α) : Prop where
  result : ∀ a, reading = .ok a → p a
  fault : ∀ cause, reading = .error (.fault cause) → q cause

namespace Yields

@[simp] theorem ok_iff {a : α} : Yields p q (.ok a) ↔ p a := by
  constructor
  · intro h
    exact h.result a rfl
  · intro ha
    constructor
    · intro b hb
      cases hb
      exact ha
    · intro cause h
      cases h

@[simp] theorem pure_iff {a : α} : Yields p q (pure a) ↔ p a := ok_iff

@[simp] theorem malformed : Yields p q (.error .malformed) := by
  constructor
  · intro a h
    cases h
  · intro cause h
    cases h

@[simp] theorem fault_iff {cause : Fault} :
    Yields p q (.error (.fault cause) : Except ReadError α) ↔ q cause := by
  constructor
  · intro h
    exact h.fault cause rfl
  · intro hcause
    constructor
    · intro a h
      cases h
    · intro other h
      cases h
      exact hcause

@[simp] theorem refuse_iff {cause : Fault} :
    Yields p q (ScalarValue.refuse cause : Except ReadError α) ↔ q cause := fault_iff

theorem bind {reading : Except ReadError α} {next : α → Except ReadError β}
    (h : Yields p q reading) (hnext : ∀ a, p a → Yields p' q (next a)) :
    Yields p' q (reading >>= next) := by
  cases reading with
  | ok a => exact hnext a (h.result a rfl)
  | error e =>
      cases e with
      | malformed => exact malformed
      | fault cause => exact fault_iff.mpr (h.fault cause rfl)

theorem mono {reading : Except ReadError α} {further : α → Prop} {others : Fault → Prop}
    (h : Yields p q reading) (hresult : ∀ a, p a → further a)
    (hfault : ∀ cause, q cause → others cause) : Yields further others reading where
  result a ha := hresult a (h.result a ha)
  fault cause hcause := hfault cause (h.fault cause hcause)

theorem map {reading : Except ReadError α} {f : α → β} (h : Yields p q reading)
    (hf : ∀ a, p a → p' (f a)) : Yields p' q (f <$> reading) := by
  cases reading with
  | ok a => exact ok_iff.mpr (hf a (h.result a rfl))
  | error e =>
      cases e with
      | malformed => exact malformed
      | fault cause => exact fault_iff.mpr (h.fault cause rfl)

theorem mapM {f : β → Except ReadError α} {xs : List β} (h : ∀ x ∈ xs, Yields p q (f x)) :
    Yields (fun ys => ∀ y ∈ ys, p y) q (xs.mapM f) := by
  induction xs with
  | nil => simp
  | cons x xs ih =>
      rw [List.mapM_cons]
      apply (h x (by simp)).bind
      intro y hy
      apply (ih fun z hz => h z (by simp [hz])).bind
      intro ys hys
      simpa using ⟨hy, hys⟩

/-- What each step keeps, a whole run keeps. -/
theorem foldlM {f : α → β → Except ReadError α} {xs : List β} {start : α} (hstart : p start)
    (h : ∀ a x, p a → Yields p q (f a x)) : Yields p q (xs.foldlM f start) := by
  induction xs generalizing start with
  | nil => exact pure_iff.mpr hstart
  | cons x xs ih =>
      rw [List.foldlM_cons]
      apply (h start x hstart).bind
      intro next hnext
      exact ih hnext

theorem required {found : Option α} (h : ∀ a, found = some a → p a) :
    Yields p q (required found) := by
  cases found with
  | none => exact malformed
  | some a => exact ok_iff.mpr (h a rfl)

end Yields

abbrev ScalarFaults (reading : Except ReadError α) : Prop := Yields (fun _ => True) Fault.OfScalar reading

theorem scalarFaults_required (found : Option α) : ScalarFaults (required found) :=
  Yields.required fun _ _ => trivial

namespace ScalarValue

open Fault

theorem scalarFaults_bad (kind : String) (s : List Char) :
    ScalarFaults (bad kind s : Except ReadError α) :=
  Yields.refuse_iff.mpr (.badValue _)

theorem scalarFaults_present {cause : Fault} (hcause : cause.OfScalar) (v : Option α) :
    ScalarFaults (present cause v) := by
  cases v with
  | none => exact Yields.refuse_iff.mpr hcause
  | some a => exact Yields.ok_iff.mpr trivial

theorem scalarFaults_found (kind : String) (s : List Char) (v : Option α) :
    ScalarFaults (found kind s v) := by
  cases v with
  | none => exact scalarFaults_bad kind s
  | some a => exact Yields.ok_iff.mpr trivial

theorem scalarFaults_decimal (s : List Char) : ScalarFaults (decimal s) := by
  unfold decimal
  simp only
  split
  · split
    · exact Yields.refuse_iff.mpr (.tooManyDigits _)
    · exact Yields.ok_iff.mpr trivial
  · exact scalarFaults_bad _ s

theorem scalarFaults_int (s : List Char) : ScalarFaults (int s) := by
  unfold int
  generalize unsigned s = signed
  obtain ⟨negative, s⟩ := signed
  have hsigned (n : Int) (_ : True) :
      ScalarFaults (pure (if negative then -n else n) : Except ReadError Int) :=
    Yields.pure_iff.mpr trivial
  simp only
  split
  · exact (Yields.refuse_iff.mpr .empty).bind hsigned
  · exact (Yields.pure_iff.mpr trivial).bind hsigned
  · exact (scalarFaults_found _ _ _).bind hsigned
  · exact (scalarFaults_found _ _ _).bind hsigned
  · exact (scalarFaults_found _ _ _).bind hsigned
  · split
    · have hgroups := Yields.mapM fun group (_ : group ∈ pieces ':' s) => scalarFaults_decimal group
      exact (hgroups.map fun _ _ => trivial).bind hsigned
    · exact (scalarFaults_decimal s).bind hsigned

theorem scalarFaults_sexagesimalFloat (base : Nat) (sum : Binary64) (groups : List Binary64) :
    ScalarFaults (sexagesimalFloat base sum groups) := by
  induction groups generalizing base sum with
  | nil => exact Yields.ok_iff.mpr trivial
  | cons d groups ih =>
      rw [sexagesimalFloat]
      apply (scalarFaults_present .overflow _).bind
      intro worth _
      exact ih _ _

theorem scalarFaults_float (origin : Nat) (s : List Char) : ScalarFaults (float origin s) := by
  unfold float
  simp only
  split
  · simp only [refuse, bind, Except.bind]
    exact Yields.fault_iff.mpr .empty
  · split
    · exact Yields.pure_iff.mpr trivial
    · split
      · exact Yields.pure_iff.mpr trivial
      · split
        · have hgroups := Yields.mapM fun group
              (_ : group ∈ pieces ':' (unsigned (s.map Char.toLower)).2) =>
            scalarFaults_found "float()" group (Numeral.float? origin group)
          apply hgroups.bind
          intro groups _
          apply (scalarFaults_sexagesimalFloat _ _ _).bind
          intro x _
          exact Yields.pure_iff.mpr trivial
        · apply (scalarFaults_found _ _ _).bind
          intro x _
          exact Yields.pure_iff.mpr trivial

theorem scalarFaults_bool (s : List Char) : ScalarFaults (bool s) := by
  unfold bool
  simp only
  split
  · exact Yields.ok_iff.mpr trivial
  · exact Yields.refuse_iff.mpr (.noSuchWord _)

theorem scalarFaults_offset (zone : Plain.Zone) : ScalarFaults (offset zone) := by
  cases zone with
  | none => exact Yields.ok_iff.mpr trivial
  | universal => exact Yields.ok_iff.mpr trivial
  | offset negative hours minutes =>
      unfold offset
      simp only
      split
      · exact Yields.refuse_iff.mpr (.badValue _)
      · exact Yields.ok_iff.mpr trivial

theorem scalarFaults_timestamp (s : List Char) : ScalarFaults (timestamp s) := by
  unfold timestamp
  simp only
  split
  · exact Yields.refuse_iff.mpr .noTimestamp
  · split
    · split
      · exact Yields.pure_iff.mpr trivial
      · exact Yields.refuse_iff.mpr (.badValue _)
    · apply (scalarFaults_offset _).bind
      intro seconds _
      split
      · exact Yields.pure_iff.mpr trivial
      · exact Yields.refuse_iff.mpr (.badValue _)

theorem scalarFaults_binary (s : List Char) : ScalarFaults (binary s) := by
  unfold binary
  split
  · exact Yields.malformed
  · split
    · exact Yields.ok_iff.mpr trivial
    · exact Yields.malformed

theorem scalarFaults_ofText (tag : Tag) (number : Nat) (s : List Char) :
    ScalarFaults (ofText tag number s) := by
  cases tag with
  | null => exact Yields.ok_iff.mpr trivial
  | bool => exact (scalarFaults_bool s).bind fun _ _ => Yields.pure_iff.mpr trivial
  | int => exact (scalarFaults_int s).bind fun _ _ => Yields.pure_iff.mpr trivial
  | float => exact (scalarFaults_float _ s).bind fun _ _ => Yields.pure_iff.mpr trivial
  | binary => exact scalarFaults_binary s
  | timestamp => exact scalarFaults_timestamp s
  | str => exact Yields.ok_iff.mpr trivial
  | _ => exact Yields.malformed

theorem scalarFaults_ofMapping (tag : Tag) (number : Nat) (s : List Char) :
    ScalarFaults (ofMapping tag number s) := by
  unfold ofMapping
  split
  · exact Yields.refuse_iff.mpr .noText
  · exact scalarFaults_ofText tag number s

end ScalarValue

namespace DoubleQuoted

theorem scalarFaults_charOf (n : Nat) : ScalarFaults (charOf n) := by
  unfold charOf
  split
  · exact Yields.fault_iff.mpr .overflow
  · split
    · exact Yields.fault_iff.mpr (.badValue _)
    · split
      · exact Yields.ok_iff.mpr trivial
      · exact Yields.ok_iff.mpr trivial

theorem scalarFaults_readEscape (c : Cursor) : ScalarFaults (readEscape c) := by
  unfold readEscape
  split
  · exact Yields.malformed
  · split
    · exact Yields.ok_iff.mpr trivial
    · split
      · simp only
        split
        · exact Yields.malformed
        · apply (scalarFaults_required _).bind
          intro n _
          apply (scalarFaults_charOf n).bind
          intro ch _
          exact Yields.pure_iff.mpr trivial
      · split
        · exact scalarFaults_required _
        · exact Yields.malformed

theorem scalarFaults_readFrom (fuel : Nat) (c : Cursor) : ScalarFaults (readFrom fuel c) := by
  induction fuel generalizing c with
  | zero => exact Yields.malformed
  | succ fuel ih =>
      unfold readFrom
      split
      · exact Yields.malformed
      · exact Yields.ok_iff.mpr trivial
      · apply (scalarFaults_readEscape c.next).bind
        intro found _
        exact (ih found.2).bind fun _ _ => Yields.pure_iff.mpr trivial
      · split
        · apply (scalarFaults_required _).bind
          intro found _
          exact (ih found.2).bind fun _ _ => Yields.pure_iff.mpr trivial
        · exact (ih c.next).bind fun _ _ => Yields.pure_iff.mpr trivial

end DoubleQuoted

end Yaml

end FunctionPipeline

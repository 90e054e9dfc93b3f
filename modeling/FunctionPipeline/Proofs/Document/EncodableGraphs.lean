import Mathlib.Logic.Relation
import FunctionPipeline.Failure
import FunctionPipeline.Proofs.Document.FirstOffence
import FunctionPipeline.Proofs.Document.JsonValues

/-!
The graphs of objects that can be written: no container leads back to itself, keys are texts and
what else is reached has a form in documents, `Heap.Encodable`. They are just those in which nothing
offends, and those that look like JSON values, `Heap.encodable_iff_isJson`. Of all others the
encoder's check reports the first offence, as a failure of its own kind with one exception.
-/

namespace FunctionPipeline

def EncodeError.path? : EncodeError → Option String
  | .nonFinite path | .cyclic path | .keyNotText _ _ path | .noForm _ path => some path
  | .fault _ => none

namespace Heap

open Relation

variable {n : Nat} {h : Heap n}

def Container.slots : Container n → List (Slot n)
  | .sequence _ items => items
  | .mapping _ entries => entries.map Prod.snd

def Container.keys : Container n → List Value
  | .sequence _ _ => []
  | .mapping _ entries => entries.map Prod.fst

/-- Whether a container holds something in one of its places. -/
def Holds (h : Heap n) (x y : Slot n) : Prop := ∃ id, x = .node id ∧ y ∈ (h id).slots

/-- A graph whose containers, as far as they are reached, do not lead back to themselves and have
texts as keys, and whose other values are finite numbers, texts, booleans, integers and null. -/
structure Encodable (h : Heap n) (root : Slot n) : Prop where
  acyclic : ∀ id, ReflTransGen h.Holds root (.node id) →
    ¬ TransGen h.Holds (.node id) (.node id)
  textKeys : ∀ id, ReflTransGen h.Holds root (.node id) →
    ∀ k ∈ (h id).keys, ∃ name, k = .str name
  finite : ∀ x hx, ReflTransGen h.Holds root (.leaf (.float x) hx) → x.isFinite = true
  scalar : ∀ v hv, ReflTransGen h.Holds root (.leaf v hv) → v.isScalar = true

theorem slot_mem_visits {c : Container n} {path : String} {x : Slot n} :
    (∃ inner, .slot inner x ∈ c.visits path) ↔ x ∈ c.slots := by
  cases c with
  | sequence access items =>
      simp only [Container.visits, Container.slots, List.mem_map, Visit.slot.injEq]
      constructor
      · rintro ⟨_, e, he, -, rfl⟩
        exact List.fst_mem_of_mem_zipIdx he
      · intro hx
        obtain ⟨i, hi⟩ := List.getElem?_of_mem hx
        exact ⟨_, (x, i), List.mk_mem_zipIdx_iff_getElem?.mpr hi, rfl, rfl⟩
  | mapping access entries =>
      simp only [Container.visits, Container.slots, List.mem_flatMap, List.mem_map, List.mem_cons,
        reduceCtorEq, false_or, List.not_mem_nil, or_false, Visit.slot.injEq]
      constructor
      · rintro ⟨_, e, he, -, rfl⟩
        exact ⟨e, he, rfl⟩
      · rintro ⟨e, he, rfl⟩
        exact ⟨_, e, he, rfl, rfl⟩

theorem key_mem_visits {c : Container n} {path : String} {k : Value} :
    (∃ inner, .key inner k ∈ c.visits path) ↔ k ∈ c.keys := by
  cases c with
  | sequence access items => simp [Container.visits, Container.keys]
  | mapping access entries =>
      simp only [Container.visits, Container.keys, List.mem_flatMap, List.mem_map, List.mem_cons,
        reduceCtorEq, List.not_mem_nil, or_false, Visit.key.injEq]
      constructor
      · rintro ⟨_, e, he, -, rfl⟩
        exact ⟨e, he, rfl⟩
      · rintro ⟨e, he, rfl⟩
        exact ⟨_, e, he, rfl, rfl⟩

section Encodable

variable {root x y : Slot n} {above : List (Fin n)} {visits : List (Visit n)}

/-- Nothing offends in an encodable graph: all the containers the check is inside of lead to what
it visits, so that it comes by none of them again. -/
theorem Encodable.not_offends (henc : h.Encodable root) {place : List Nat} {v : Visit n}
    {e : EncodeError} (hkeys : ∀ path k, .key path k ∈ visits → ∃ name, k = .str name)
    (hslots : ∀ path x, .slot path x ∈ visits → ReflTransGen h.Holds root x ∧
      ∀ id ∈ above, TransGen h.Holds (.node id) x) :
    ¬ h.Offends above visits place v e := by
  intro ho
  induction ho with
  | @here above visits i v e hat hoffence =>
      have hmem := List.mem_of_getElem? hat
      match v with
      | .key path k =>
          obtain ⟨name, rfl⟩ := hkeys path k hmem
          cases hoffence
      | .slot path (.leaf v hv) =>
          obtain ⟨hreach, -⟩ := hslots path _ hmem
          have hscalar := henc.scalar v hv hreach
          cases v with
          | float x =>
              rw [Visit.offence?, henc.finite x hv hreach] at hoffence
              cases hoffence
          | null | bool | int | str => cases hoffence
          | _ => cases hscalar
      | .slot path (.node id) =>
          obtain ⟨hreach, hback⟩ := hslots path _ hmem
          have hid : id ∉ above := fun hid => henc.acyclic id hreach (hback id hid)
          rw [offence?_entered hid] at hoffence
          cases hoffence
  | @inside above visits i path id place v e hat hid _ ih =>
      obtain ⟨hreach, hback⟩ := hslots path _ (List.mem_of_getElem? hat)
      apply ih
      · intro inner k hk
        exact henc.textKeys id hreach k (key_mem_visits.mp ⟨inner, hk⟩)
      · intro inner y hy
        have hholds : h.Holds (.node id) y := ⟨id, rfl, slot_mem_visits.mp ⟨inner, hy⟩⟩
        refine ⟨hreach.tail hholds, fun outer houter => ?_⟩
        rcases List.mem_cons.mp houter with rfl | houter
        · exact .single hholds
        · exact (hback outer houter).tail hholds

/-- A place that the check comes by from inside of containers, among visits none of which
offends. -/
def Clean (h : Heap n) (above : List (Fin n)) (x : Slot n) : Prop :=
  ∃ path visits, .slot path x ∈ visits ∧ ∀ place v e, ¬ h.Offends above visits place v e

theorem Clean.offence? (hx : h.Clean above x) :
    ∃ path, (Visit.slot path x).offence? above = none := by
  obtain ⟨path, visits, hmem, hclean⟩ := hx
  refine ⟨path, Option.eq_none_iff_forall_ne_some.mpr fun e hoffence => ?_⟩
  obtain ⟨i, hi⟩ := List.getElem?_of_mem hmem
  exact hclean _ _ e (.here hi hoffence)

theorem Clean.not_mem {id : Fin n} (hx : h.Clean above (.node id)) : id ∉ above := by
  obtain ⟨path, hoffence⟩ := hx.offence?
  intro hid
  rw [Visit.offence?, if_pos hid] at hoffence
  cases hoffence

theorem Clean.inside {id : Fin n} (hx : h.Clean above (.node id)) :
    ∃ path, ∀ place v e, ¬ h.Offends (id :: above) ((h id).visits path) place v e := by
  have hid := hx.not_mem
  obtain ⟨path, visits, hmem, hclean⟩ := hx
  obtain ⟨i, hi⟩ := List.getElem?_of_mem hmem
  exact ⟨path, fun place v e ho => hclean _ v e (.inside hi hid ho)⟩

theorem Clean.textKey {id : Fin n} (hx : h.Clean above (.node id)) {k : Value}
    (hk : k ∈ (h id).keys) : ∃ name, k = .str name := by
  obtain ⟨path, hclean⟩ := hx.inside
  obtain ⟨inner, hmem⟩ := key_mem_visits.mpr hk
  obtain ⟨i, hi⟩ := List.getElem?_of_mem hmem
  by_contra hnot
  rw [not_exists] at hnot
  exact hclean _ _ _ (.here hi (offence?_keyNotText hnot))

theorem Clean.holds {id : Fin n} (hx : h.Clean above (.node id)) (hy : y ∈ (h id).slots) :
    h.Clean (id :: above) y := by
  obtain ⟨path, hclean⟩ := hx.inside
  obtain ⟨inner, hmem⟩ := slot_mem_visits.mpr hy
  exact ⟨inner, _, hmem, hclean⟩

/-- The check comes by all that is reached, from inside of more containers. -/
theorem Clean.reaches (hx : h.Clean above x) (hreach : ReflTransGen h.Holds x y) :
    ∃ inner, (∀ id ∈ above, id ∈ inner) ∧ h.Clean inner y := by
  induction hreach with
  | refl => exact ⟨above, fun _ hid => hid, hx⟩
  | tail _ hstep ih =>
      obtain ⟨inner, hsub, hclean⟩ := ih
      obtain ⟨id, rfl, hy⟩ := hstep
      exact ⟨id :: inner, fun other hother => .tail id (hsub other hother), hclean.holds hy⟩

theorem Clean.acyclic {id : Fin n} (hx : h.Clean above (.node id)) :
    ¬ TransGen h.Holds (.node id) (.node id) := by
  intro hcycle
  obtain ⟨y, ⟨_, ⟨⟩, hy⟩, hback⟩ := TransGen.head'_iff.mp hcycle
  obtain ⟨inner, hsub, hclean⟩ := (hx.holds hy).reaches hback
  exact hclean.not_mem (hsub id List.mem_cons_self)

theorem Clean.scalar {v : Value} {hv : v.isContainer = false} (hx : h.Clean above (.leaf v hv)) :
    v.isScalar = true := by
  obtain ⟨path, hoffence⟩ := hx.offence?
  cases v with
  | null | bool | int | float | str => rfl
  | sequence | mapping | enclosing => cases hv
  | _ => cases hoffence

theorem Clean.finite {x : Binary64} {hv : (Value.float x).isContainer = false}
    (hx : h.Clean above (.leaf (.float x) hv)) : x.isFinite = true := by
  obtain ⟨path, hoffence⟩ := hx.offence?
  by_contra hnot
  rw [Visit.offence?, if_neg hnot] at hoffence
  cases hoffence

/-- Just the encodable graphs have nothing that offends. -/
theorem encodable_iff :
    h.Encodable root ↔ ∀ place v e, ¬ h.Offends [] (whole root) place v e := by
  constructor
  · intro henc place v e
    apply henc.not_offends
    · intro path k hk
      cases List.mem_singleton.mp hk
    · intro path x hx
      cases List.mem_singleton.mp hx
      exact ⟨.refl, fun id hid => nomatch hid⟩
  · intro hclean
    have hroot : h.Clean [] root := ⟨_, whole root, List.mem_cons_self, hclean⟩
    constructor
    · intro id hreach
      obtain ⟨inner, -, hid⟩ := hroot.reaches hreach
      exact hid.acyclic
    · intro id hreach k hk
      obtain ⟨inner, -, hid⟩ := hroot.reaches hreach
      exact hid.textKey hk
    · intro x hx hreach
      obtain ⟨inner, -, hleaf⟩ := hroot.reaches hreach
      exact hleaf.finite
    · intro v hv hreach
      obtain ⟨inner, -, hleaf⟩ := hroot.reaches hreach
      exact hleaf.scalar

/-- A graph is encodable if what one sees of it is a JSON value, however much of it is shared. -/
theorem encodable_iff_isJson : h.Encodable root ↔ (h.value [] root).isJson = true := by
  rw [encodable_iff, ← outcomes_eq_ok_iff, outcomes_whole, Value.checkEncodable_eq_ok_iff]

end Encodable

def Visit.path : Visit n → String
  | .key path _ | .slot path _ => path

/-- Whether a visit is one to a key with an integer too long to be shown. -/
def Visit.IsLongKey (v : Visit n) : Prop := ∃ path k, v = .key path k ∧ k.hasLongInteger = true

/-- An offence fails as a value that cannot be written, with the path of the visit, unless it is
that of a key with a long integer. -/
theorem offence?_cases {v : Visit n} {above : List (Fin n)} {e : EncodeError}
    (hoffence : v.offence? above = some e) :
    (¬ v.IsLongKey ∧ e.path? = some v.path ∧
        (Failure.ofEncodeError e).isA .serialization = true) ∨
      (v.IsLongKey ∧ e = .fault .longInteger) := by
  have hslot : ∀ path x, ¬ (Visit.slot path x : Visit n).IsLongKey := by
    rintro path x ⟨_, _, ⟨⟩, _⟩
  match v with
  | .key path k =>
      by_cases hk : ∃ name, k = .str name
      · obtain ⟨name, rfl⟩ := hk
        cases hoffence
      · rw [not_exists] at hk
        rw [offence?_keyNotText hk, ofKey_eq] at hoffence
        split at hoffence
        next hlong =>
          cases hoffence
          exact .inr ⟨⟨path, k, rfl, hlong⟩, rfl⟩
        next hshort =>
          cases hoffence
          refine .inl ⟨?_, rfl, rfl⟩
          rintro ⟨_, _, ⟨⟩, hlong⟩
          exact hshort hlong
  | .slot path (.leaf v hv) =>
      cases v with
      | float x =>
          rw [Visit.offence?] at hoffence
          split at hoffence <;> cases hoffence
          exact .inl ⟨hslot _ _, rfl, rfl⟩
      | null | bool | int | str => cases hoffence
      | _ =>
          cases hoffence
          exact .inl ⟨hslot _ _, rfl, rfl⟩
  | .slot path (.node id) =>
      rw [Visit.offence?] at hoffence
      split at hoffence <;> cases hoffence
      exact .inl ⟨hslot _ _, rfl, rfl⟩

theorem Offends.offence? {above : List (Fin n)} {visits : List (Visit n)} {place : List Nat}
    {v : Visit n} {e : EncodeError} (ho : h.Offends above visits place v e) :
    ∃ inner, v.offence? inner = some e := by
  induction ho with
  | here _ hoffence => exact ⟨_, hoffence⟩
  | inside _ _ _ ih => exact ih

/-- The check of any graph of objects ends, in one way and inside of no container. It passes if the
graph is encodable and else reports the first offence: as a serialization failure with its path, or
as the fault of a long integer if it is a key with one. -/
theorem check_reports_first_offence (h : Heap n) (root : Slot n) :
    ∃ outcome : Except EncodeError Unit,
      (∀ reported left,
        h.Checks ∅ (whole root) reported left ↔ reported = outcome ∧ left = ∅) ∧
      (h.value [] root).checkEncodable Value.rootPath = outcome ∧
      (outcome = .ok () ↔ h.Encodable root) ∧
      (∀ e, outcome = .error e ↔ ∃ place v, h.IsFirstOffence [] (whole root) place v e) ∧
      ∀ place v e, h.IsFirstOffence [] (whole root) place v e →
        (¬ v.IsLongKey ∧ e.path? = some v.path ∧
            (Failure.ofEncodeError e).isA .serialization = true) ∨
          (v.IsLongKey ∧ e = .fault .longInteger) := by
  refine ⟨h.outcomes [] (whole root), fun _ _ => checks_empty_iff, (outcomes_whole root).symm,
    outcomes_eq_ok_iff.trans encodable_iff.symm, fun e => outcomes_eq_error_iff, ?_⟩
  intro place v e hfirst
  obtain ⟨inner, hoffence⟩ := hfirst.1.offence?
  exact offence?_cases hoffence

def keyed (k : Value) : Heap 1 := fun _ => .mapping .writable [(k, .leaf .null rfl)]

theorem checks_keyed {k : Value} (hlong : k.hasLongInteger = true) :
    (keyed k).Checks ∅ (whole (.node 0)) (.error (.fault .longInteger)) ∅ := by
  have hk : ∀ name, k ≠ .str name := by
    rintro name rfl
    cases hlong
  have hinside : (keyed k).Checks (insert 0 ∅) (((keyed k) 0).visits Value.rootPath)
      (.error (.ofKey k Value.rootPath)) (insert 0 ∅) := .keyNotText hk
  rw [ofKey_eq, if_pos hlong] at hinside
  have hrun : (keyed k).Checks ∅ (whole (.node 0)) (.error (.fault .longInteger))
      ((insert 0 ∅ : Finset (Fin 1)).erase 0) :=
    .insideRejected (Finset.notMem_empty 0) hinside
  rwa [Finset.erase_insert (Finset.notMem_empty 0)] at hrun

theorem hasLongInteger_natCast {m : Nat} :
    (Value.int m).hasLongInteger = true ↔ Nat.pow 10 digitLimit ≤ m := by
  rw [Value.hasLongInteger, isLongInteger, Int.natAbs_natCast, hasMoreDigits_iff]

/-- The least integer that is too long to be shown, as a key. -/
theorem check_faults_on_long_key :
    (keyed (.int (Nat.pow 10 digitLimit))).Checks ∅ (whole (.node 0))
        (.error (.fault .longInteger)) ∅ ∧
      (Failure.ofEncodeError (.fault .longInteger)).isA .serialization = false := by
  have hlong : (Value.int (Nat.pow 10 digitLimit)).hasLongInteger = true :=
    hasLongInteger_natCast.mpr (Nat.le_refl _)
  exact ⟨checks_keyed hlong, rfl⟩

end Heap

end FunctionPipeline

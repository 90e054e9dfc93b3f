import FunctionPipeline.Proofs.Document.RepeatedMerges
import Mathlib.Data.List.Perm.Subperm

/-!
Equality of contents. A value whose mappings and sets can be ones equals itself, and two mappings
are equal exactly if every key leads to equal values in both or to none in both: the order of keys
does not count, nor which of several equal keys an entry has.
-/

namespace FunctionPipeline

namespace Value

mutual

/-- Whether every set in a value can be one: its members can be looked up. -/
def hasKeySets : Value → Bool
  | .set members => members.all fun v => v.unhashable?.isNone
  | .sequence _ items => allKeySets items
  | .mapping _ entries => entriesKeySets entries
  | _ => true

def allKeySets : List Value → Bool
  | [] => true
  | x :: xs => hasKeySets x && allKeySets xs

def entriesKeySets : List (Value × Value) → Bool
  | [] => true
  | (_, v) :: es => hasKeySets v && entriesKeySets es

end

theorem entriesKeySets_iff {es : Entries} :
    entriesKeySets es = true ↔ ∀ e ∈ es, e.2.hasKeySets = true := by
  induction es with
  | nil => simp [entriesKeySets]
  | cons e es ih =>
      obtain ⟨k, v⟩ := e
      rw [entriesKeySets, Bool.and_eq_true, ih, List.forall_mem_cons]

structure IsProper (v : Value) : Prop where
  mappings : v.isWellKeyed = true
  sets : v.hasKeySets = true

end Value

namespace Entries

/-- Entries of a mapping that can be one, over values whose mappings and sets can. -/
structure IsProper (es : Entries) : Prop where
  mappings : IsWellKeyed es
  sets : Value.entriesKeySets es = true

theorem isProper_nil : IsProper [] := ⟨rfl, rfl⟩

theorem IsProper.get? {es : Entries} (h : IsProper es) {key v : Value}
    (hv : get? es key = some v) : v.IsProper :=
  ⟨h.mappings.get? hv,
    of_get? (P := fun w => w.hasKeySets = true) (Value.entriesKeySets_iff.mp h.sets) hv⟩

theorem isProper_mapping {a : Access} {es : Entries} (h : (Value.mapping a es).IsProper) :
    IsProper es := ⟨h.mappings, h.sets⟩

variable {α : Type}

/-- Entries whose keys can be looked up, no two of them equal. -/
structure IsKeyed (es : List (Value × α)) : Prop where
  areKeys : AreKeys es
  distinct : Distinct es

theorem IsWellKeyed.isKeyed {es : Entries} (h : IsWellKeyed es) : IsKeyed es :=
  ⟨h.areKeys, h.distinct⟩

theorem IsKeyed.put {es : List (Value × α)} (h : IsKeyed es) {k : Value}
    (hk : k.unhashable? = none) (v : α) : IsKeyed (put es k v) :=
  ⟨h.areKeys.put hk v, h.distinct.put h.areKeys hk v⟩

/-- An entry's value stands under its key. -/
theorem IsKeyed.get?_of_mem {es : List (Value × α)} (h : IsKeyed es) {e : Value × α} (he : e ∈ es) :
    get? es e.1 = some e.2 := by
  obtain ⟨hkeys, hdistinct⟩ := h
  induction es with
  | nil => cases he
  | cons f es ih =>
      obtain ⟨hnew, hothers⟩ : (∀ l ∈ keys es, f.1.equals l = false) ∧ Distinct es := by
        simpa [Distinct, keys] using hdistinct
      rw [get?_cons]
      rcases List.mem_cons.mp he with rfl | hmem
      · rw [Value.equals_self (hkeys e (by simp)), if_pos rfl]
      · have hunequal : e.1.equals f.1 = false := by
          rw [Value.equals_comm (hkeys e he) (hkeys f (by simp))]
          exact hnew _ (List.mem_map_of_mem hmem)
        rw [hunequal]
        exact ih hmem hkeys.tail hothers

end Entries

namespace Value

theorem entriesIn_iff {es fs : Entries} :
    entriesIn es fs = true ↔
      ∀ e ∈ es, ∃ w, Entries.get? fs e.1 = some w ∧ e.2.equals w = true := by
  induction es with
  | nil => simp [entriesIn]
  | cons e es ih =>
      obtain ⟨k, v⟩ := e
      rw [entriesIn, Bool.and_eq_true, ih, List.forall_mem_cons, Entries.get?]
      cases fs.find? fun e => k.equals e.1 <;> simp

theorem membersIn_iff {vs ws : List Value} :
    membersIn vs ws = true ↔ ∀ v ∈ vs, ∃ w ∈ ws, v.equals w = true := by
  induction vs with
  | nil => simp [membersIn]
  | cons v vs ih => simp [membersIn, ih]

mutual

/-- A value equals itself. -/
theorem equals_refl : ∀ {v : Value}, v.isWellKeyed = true → v.hasKeySets = true →
    v.equals v = true
  | .sequence _ items, hkeyed, hsets => by
      simpa [equals] using equalsAll_refl hkeyed hsets
  | .set members, _, hsets => by
      have hself : ∀ v ∈ members, v.equals v = true := fun v hv => equals_self <| by
        simpa using List.all_eq_true.mp hsets v hv
      simpa [equals, membersIn_iff] using fun v hv => ⟨v, hv, hself v hv⟩
  | .mapping _ entries, hkeyed, hsets => by
      have hentries : Entries.IsWellKeyed entries := hkeyed
      simpa [equals, entriesIn_iff] using fun k v hmem =>
        ⟨v, hentries.isKeyed.get?_of_mem hmem,
          entriesEqual_refl hkeyed hsets (k, v) hmem⟩
  | .null, _, _ | .bool _, _, _ | .int _, _, _ | .float _, _, _ | .str _, _, _ | .bytes _, _, _
  | .date _, _, _ | .moment _, _, _ | .foreign _, _, _ | .enclosing _, _, _ => equals_self rfl

theorem equalsAll_refl : ∀ {vs : List Value}, allWellKeyed vs = true → allKeySets vs = true →
    equalsAll vs vs = true
  | [], _, _ => by rw [equalsAll]
  | v :: vs, hkeyed, hsets => by
      rw [allWellKeyed, Bool.and_eq_true] at hkeyed
      rw [allKeySets, Bool.and_eq_true] at hsets
      rw [equalsAll, equals_refl hkeyed.1 hsets.1, equalsAll_refl hkeyed.2 hsets.2, Bool.and_self]

theorem entriesEqual_refl : ∀ {es : List (Value × Value)}, entriesWellKeyed es = true →
    entriesKeySets es = true → ∀ e ∈ es, e.2.equals e.2 = true
  | [], _, _ => by simp
  | (k, v) :: es, hkeyed, hsets => by
      rw [entriesWellKeyed, Bool.and_eq_true, Bool.and_eq_true] at hkeyed
      rw [entriesKeySets, Bool.and_eq_true] at hsets
      exact List.forall_mem_cons.mpr
        ⟨equals_refl hkeyed.1.2 hsets.1, entriesEqual_refl hkeyed.2 hsets.2⟩

end

theorem IsProper.equals_self {v : Value} (h : v.IsProper) : v.equals v = true :=
  equals_refl h.mappings h.sets

/-- A mapping equals mappings only. -/
theorem isMapping_of_equals {v w : Value} (h : v.equals w = true) : v.isMapping = w.isMapping := by
  have hposition (a : Access) (es : Entries) : (Value.mapping a es).position? = none := rfl
  cases v with
  | mapping a es =>
      cases w with
      | mapping b fs => rfl
      | _ => simp [equals, scalarEquals, hposition] at h
  | _ =>
      cases w with
      | mapping b fs => simp [equals, scalarEquals, hposition] at h
      | _ => rfl

/-- Equal values in both places, or none in both. -/
abbrev EqualFound (v w : Option Value) : Prop := Option.Rel (fun v w => v.equals w = true) v w

theorem exists_of_equalFound {v : Value} {found : Option Value} (h : EqualFound (some v) found) :
    ∃ w, found = some w ∧ v.equals w = true := by
  cases h with
  | some hequal => exact ⟨_, rfl, hequal⟩

theorem isSome_of_equalFound {found : Option Value} {w : Value} (h : EqualFound found (some w)) :
    found.isSome = true := by
  cases h
  rfl

theorem equalFound_self {found : Option Value} (h : ∀ v, found = some v → v.IsProper) :
    EqualFound found found := by
  cases found with
  | none => exact .none
  | some v => exact .some (h v rfl).equals_self

end Value

namespace Entries

variable {α : Type}

def keyClasses (es : List (Value × α)) : List Value := (keys es).map Value.keyForm

theorem mem_keyClasses_iff {es : List (Value × α)} (h : AreKeys es) {key : Value}
    (hkey : key.unhashable? = none) :
    key.keyForm ∈ keyClasses es ↔ (get? es key).isSome = true := by
  rw [get?_isSome_iff, keyClasses, List.mem_map]
  refine exists_congr fun k => and_congr_right fun hk => ?_
  obtain ⟨e, he, rfl⟩ := List.mem_map.mp hk
  rw [Value.equals_iff_keyForm hkey (h e he), eq_comm]

theorem IsKeyed.nodup_keyClasses {es : List (Value × α)} (h : IsKeyed es) :
    (keyClasses es).Nodup := by
  rw [keyClasses, List.Nodup, List.pairwise_map]
  refine List.Pairwise.imp_of_mem (fun hk hl hunequal => ?_) h.distinct
  obtain ⟨e, he, rfl⟩ := List.mem_map.mp hk
  obtain ⟨f, hf, rfl⟩ := List.mem_map.mp hl
  rw [ne_eq, ← Value.equals_iff_keyForm (h.areKeys e he) (h.areKeys f hf), hunequal]
  exact Bool.false_ne_true

/-- There are no more entries than in a mapping that has every key. -/
theorem keyClasses_subperm {es fs : List (Value × α)} (hes : IsKeyed es) (hfs : IsKeyed fs)
    (h : ∀ e ∈ es, (get? fs e.1).isSome = true) : (keyClasses es).Subperm (keyClasses fs) := by
  refine hes.nodup_keyClasses.subperm fun form hform => ?_
  obtain ⟨k, hk, rfl⟩ := List.mem_map.mp hform
  obtain ⟨e, he, rfl⟩ := List.mem_map.mp hk
  exact (mem_keyClasses_iff hfs.areKeys (hes.areKeys e he)).mpr (h e he)

theorem length_keyClasses (es : List (Value × α)) : (keyClasses es).length = es.length := by
  simp [keyClasses, keys]

/-- Mappings are equal exactly if every key leads to equal values in both or to none in both. An
entry for each key of the one in the other, and as many entries, leave no key of the other over. -/
theorem equals_iff_get? {es fs : Entries} (hes : IsKeyed es) (hfs : IsKeyed fs) (a b : Access) :
    (Value.mapping a es).equals (.mapping b fs) = true ↔
      ∀ key : Value, key.unhashable? = none → Value.EqualFound (get? es key) (get? fs key) := by
  simp only [Value.equals, Bool.and_eq_true, beq_iff_eq, Value.entriesIn_iff]
  constructor
  · rintro ⟨hlength, hentries⟩ key hkey
    have hthere : ∀ e ∈ es, (get? fs e.1).isSome = true := fun e he => by
      obtain ⟨w, hw, -⟩ := hentries e he
      rw [hw]
      rfl
    have hclasses : (keyClasses es).Perm (keyClasses fs) :=
      (keyClasses_subperm hes hfs hthere).perm_of_length_le
        (by simp [length_keyClasses, hlength])
    cases hfound : get? es key with
    | none =>
        have hnone : get? fs key = none := by
          rw [← Option.not_isSome_iff_eq_none, ← mem_keyClasses_iff hfs.areKeys hkey,
            ← hclasses.mem_iff, mem_keyClasses_iff hes.areKeys hkey, hfound]
          exact Bool.false_ne_true
        rw [hnone]
        exact .none
    | some v =>
        obtain ⟨e, he, rfl⟩ := Option.map_eq_some_iff.mp hfound
        have hmem := List.mem_of_find?_eq_some he
        have hsame : key.equals e.1 = true := by simpa using List.find?_some he
        obtain ⟨w, hw, hequal⟩ := hentries e hmem
        rw [get?_congr hfs.areKeys hkey (hes.areKeys e hmem) hsame, hw]
        exact .some hequal
  · intro h
    have hentries : ∀ e ∈ es, ∃ w, get? fs e.1 = some w ∧ e.2.equals w = true := by
      intro e he
      have hfound := h e.1 (hes.areKeys e he)
      rw [hes.get?_of_mem he] at hfound
      obtain ⟨w, hw, hequal⟩ := Value.exists_of_equalFound hfound
      exact ⟨w, hw, hequal⟩
    have hthere : ∀ e ∈ es, (get? fs e.1).isSome = true := fun e he => by
      obtain ⟨w, hw, -⟩ := hentries e he
      rw [hw]
      rfl
    have hback : ∀ f ∈ fs, (get? es f.1).isSome = true := fun f hf => by
      have hfound := h f.1 (hfs.areKeys f hf)
      rw [hfs.get?_of_mem hf] at hfound
      exact Value.isSome_of_equalFound hfound
    refine ⟨Nat.le_antisymm ?_ ?_, hentries⟩
    · rw [← length_keyClasses es, ← length_keyClasses fs]
      exact (keyClasses_subperm hes hfs hthere).length_le
    · rw [← length_keyClasses es, ← length_keyClasses fs]
      exact (keyClasses_subperm hfs hes hback).length_le

/-- Equal values written under one text key leave equal mappings. -/
theorem IsProper.equals_put {es : Entries} (h : IsProper es) (name : String) {v w : Value}
    (hequal : v.equals w = true) :
    (Value.object (put es (.str name) v)).equals (.object (put es (.str name) w)) = true := by
  have hkeyed := h.mappings.isKeyed
  rw [equals_iff_get? (hkeyed.put rfl v) (hkeyed.put rfl w)]
  intro key hkey
  rw [get?_put_str, get?_put_str]
  split
  · exact .some hequal
  · exact Value.equalFound_self fun u hu => h.get? hu

theorem IsProper.equals_self {es : Entries} (h : IsProper es) :
    (Value.object es).equals (.object es) = true :=
  Value.equals_refl h.mappings h.sets

/-- A mapping equal to an empty one is empty. -/
theorem isEmpty_of_equals {es fs : Entries} {a b : Access}
    (h : (Value.mapping a es).equals (.mapping b fs) = true) : es.isEmpty = fs.isEmpty := by
  simp only [Value.equals, Bool.and_eq_true, beq_iff_eq] at h
  rw [Bool.eq_iff_iff, List.isEmpty_iff_length_eq_zero, List.isEmpty_iff_length_eq_zero, h.1]

end Entries

end FunctionPipeline

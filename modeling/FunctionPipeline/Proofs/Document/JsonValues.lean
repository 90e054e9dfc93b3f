import FunctionPipeline.Document.Encodable
import FunctionPipeline.Proofs.Document.Merging

/-!
JSON values: finite trees of mappings with text keys, sequences, texts, integers, finite numbers,
booleans and null. They are what the encoder's check passes, `checkEncodable_eq_ok_iff`, and closed
under all that is done with documents: copies, look-ups, writes under text keys and deep merges.
-/

namespace FunctionPipeline

namespace Value

mutual

def isJson : Value → Bool
  | .null | .bool _ | .int _ | .str _ => true
  | .float x => x.isFinite
  | .sequence _ items => allJson items
  | .mapping _ entries => entriesJson entries
  | _ => false

def allJson : List Value → Bool
  | [] => true
  | x :: xs => isJson x && allJson xs

def entriesJson : List (Value × Value) → Bool
  | [] => true
  | (.str _, v) :: es => isJson v && entriesJson es
  | _ :: _ => false

end

mutual

def hasFiniteNumbers : Value → Bool
  | .float x => x.isFinite
  | .sequence _ items => allFiniteNumbers items
  | .mapping _ entries => entriesFiniteNumbers entries
  | _ => true

def allFiniteNumbers : List Value → Bool
  | [] => true
  | x :: xs => hasFiniteNumbers x && allFiniteNumbers xs

def entriesFiniteNumbers : List (Value × Value) → Bool
  | [] => true
  | (_, v) :: es => hasFiniteNumbers v && entriesFiniteNumbers es

end

theorem allJson_iff {items : List Value} :
    allJson items = true ↔ ∀ x ∈ items, x.isJson = true := by
  induction items with
  | nil => simp [allJson]
  | cons x xs ih => simp [allJson, ih]

theorem allFiniteNumbers_iff {items : List Value} :
    allFiniteNumbers items = true ↔ ∀ x ∈ items, x.hasFiniteNumbers = true := by
  induction items with
  | nil => simp [allFiniteNumbers]
  | cons x xs ih => simp [allFiniteNumbers, ih]

theorem entriesFiniteNumbers_iff {es : Entries} :
    entriesFiniteNumbers es = true ↔ ∀ e ∈ es, e.2.hasFiniteNumbers = true := by
  induction es with
  | nil => simp [entriesFiniteNumbers]
  | cons e es ih => simp [entriesFiniteNumbers, ih]

end Value

namespace Entries

def IsJson (es : Entries) : Prop := Value.entriesJson es = true

theorem isJson_nil : IsJson [] := rfl

theorem isJson_cons {k v : Value} {es : Entries} :
    IsJson ((k, v) :: es) ↔ (∃ name, k = .str name) ∧ v.isJson = true ∧ IsJson es := by
  cases k with
  | str name => simp [IsJson, Value.entriesJson]
  | _ => simp [IsJson, Value.entriesJson]

theorem isJson_singleton {name : String} {v : Value} :
    IsJson [(.str name, v)] ↔ v.isJson = true := by
  rw [isJson_cons]
  exact ⟨fun h => h.2.1, fun h => ⟨⟨name, rfl⟩, h, isJson_nil⟩⟩

theorem isJson_iff {es : Entries} :
    IsJson es ↔ ∀ e ∈ es, (∃ name, e.1 = .str name) ∧ e.2.isJson = true := by
  induction es with
  | nil => simp [isJson_nil]
  | cons e es ih =>
      obtain ⟨k, v⟩ := e
      rw [isJson_cons, ih, List.forall_mem_cons, and_assoc]

theorem isJson_append {es fs : Entries} : IsJson (es ++ fs) ↔ IsJson es ∧ IsJson fs := by
  simp only [isJson_iff, List.forall_mem_append]

theorem IsJson.put {es : Entries} (h : IsJson es) (name : String) {v : Value}
    (hv : v.isJson = true) : IsJson (put es (.str name) v) :=
  isJson_iff.mpr (forall_mem_put_str (isJson_iff.mp h) ⟨⟨name, rfl⟩, hv⟩)

theorem IsJson.get? {es : Entries} (h : IsJson es) {key v : Value} (hv : get? es key = some v) :
    v.isJson = true :=
  of_get? (P := fun w => w.isJson = true) (fun e he => (isJson_iff.mp h e he).2) hv

theorem IsJson.erase {es : Entries} (h : IsJson es) (key : Value) : IsJson (erase es key) :=
  isJson_iff.mpr fun e he => isJson_iff.mp h e (List.mem_filter.mp he).1

/-- What stands under a text key, or null. -/
theorem IsJson.getD {es : Entries} (h : IsJson es) (name : String) {other : Value}
    (hother : other.isJson = true) : ((field? es name).getD other).isJson = true :=
  of_getD (P := fun w => w.isJson = true) (fun e he => (isJson_iff.mp h e he).2) name hother

end Entries

theorem Value.isJson_mapping {access : Access} {es : Entries} :
    (Value.mapping access es).isJson = true ↔ Entries.IsJson es := Iff.rfl

namespace Value

/-! The check of the encoder. -/

/-- Two checks one after the other pass if both do. -/
private theorem checks_eq_ok_iff {ε : Type} {first second : Except ε Unit} :
    (first >>= fun _ => second) = .ok () ↔ first = .ok () ∧ second = .ok () := by
  cases first with
  | error cause => exact ⟨fun h => (nomatch h), fun h => (nomatch h.1)⟩
  | ok => exact ⟨fun h => ⟨rfl, h⟩, fun h => h.2⟩

mutual

/-- The check passes just the JSON values, wherever they stand. -/
theorem checkEncodable_eq_ok_iff (path : String) :
    ∀ v : Value, checkEncodable path v = .ok () ↔ v.isJson = true
  | .float x => by
      rw [checkEncodable, isJson]
      cases x.isFinite <;> simp
  | .sequence _ items => checkItems_eq_ok_iff path 0 items
  | .mapping _ entries => checkEntries_eq_ok_iff path entries
  | .null | .bool _ | .int _ | .str _ => by simp [checkEncodable, isJson]
  | .bytes _ | .date _ | .moment _ | .foreign _ | .set _ | .enclosing _ => by
      simp [checkEncodable, isJson]

theorem checkItems_eq_ok_iff (path : String) (index : Nat) :
    ∀ items : List Value, checkItems path index items = .ok () ↔ allJson items = true
  | [] => by simp [checkItems, allJson]
  | x :: xs => by
      rw [checkItems, checks_eq_ok_iff, checkEncodable_eq_ok_iff _ x,
        checkItems_eq_ok_iff path (index + 1) xs, allJson, Bool.and_eq_true]

theorem checkEntries_eq_ok_iff (path : String) :
    ∀ es : List (Value × Value), checkEntries path es = .ok () ↔ entriesJson es = true
  | [] => by simp [checkEntries, entriesJson]
  | (k, v) :: es => by
      cases k with
      | str name =>
          rw [checkEntries, checks_eq_ok_iff, checkEncodable_eq_ok_iff _ v,
            checkEntries_eq_ok_iff path es, entriesJson, Bool.and_eq_true]
      | _ => simp [checkEntries, entriesJson]

end

/-! Copies. -/

mutual

theorem isJson_withAccess (a : Access) : ∀ v : Value, isJson (withAccess a v) = isJson v
  | .sequence _ items => allJson_withAccessAll a items
  | .mapping _ entries => entriesJson_withAccessEntries a entries
  | .null | .bool _ | .int _ | .float _ | .str _ | .bytes _ | .date _ | .moment _ | .foreign _
  | .set _ | .enclosing _ => rfl

theorem allJson_withAccessAll (a : Access) :
    ∀ items : List Value, allJson (withAccessAll a items) = allJson items
  | [] => rfl
  | x :: xs => by
      rw [withAccessAll, allJson, allJson, isJson_withAccess a x, allJson_withAccessAll a xs]

theorem entriesJson_withAccessEntries (a : Access) :
    ∀ es : List (Value × Value), entriesJson (withAccessEntries a es) = entriesJson es
  | [] => rfl
  | (k, v) :: es => by
      cases k with
      | str name =>
          rw [withAccessEntries, entriesJson, entriesJson, isJson_withAccess a v,
            entriesJson_withAccessEntries a es]
      | _ => rfl

end

mutual

/-- A JSON value is a finite tree. -/
theorem hasReference_of_json : ∀ v : Value, v.isJson = true → v.hasReference = false
  | .sequence _ items => anyReference_of_json items
  | .mapping _ entries => entryReference_of_json entries
  | .null | .bool _ | .int _ | .float _ | .str _ => fun _ => rfl
  | .bytes _ | .date _ | .moment _ | .foreign _ | .set _ => fun _ => rfl
  | .enclosing _ => fun h => by cases h

theorem anyReference_of_json : ∀ items : List Value, allJson items = true →
    anyReference items = false
  | [] => fun _ => rfl
  | x :: xs => by
      intro h
      rw [allJson, Bool.and_eq_true] at h
      rw [anyReference, hasReference_of_json x h.1, anyReference_of_json xs h.2]
      rfl

theorem entryReference_of_json : ∀ es : List (Value × Value), entriesJson es = true →
    entryReference es = false
  | [] => fun _ => rfl
  | (k, v) :: es => by
      intro h
      obtain ⟨-, hv, hes⟩ := Entries.isJson_cons.mp h
      rw [entryReference, hasReference_of_json v hv, entryReference_of_json es hes]
      rfl

end

/-! Look-ups. -/

theorem isJson_items? {v : Value} (h : v.isJson = true) {items : List Value}
    (hitems : v.items? = some items) : ∀ x ∈ items, x.isJson = true := by
  cases v with
  | sequence access xs =>
      rw [items?, hasReference_of_json _ h, if_neg Bool.false_ne_true] at hitems
      exact Option.some.inj hitems ▸ allJson_iff.mp h
  | _ => cases hitems

theorem isJson_entries? {v : Value} (h : v.isJson = true) {es : Entries}
    (hentries : v.entries? = some es) : Entries.IsJson es := by
  cases v with
  | mapping access fs =>
      rw [entries?, hasReference_of_json _ h, if_neg Bool.false_ne_true] at hentries
      exact Option.some.inj hentries ▸ h
  | _ => cases hentries

/-- The parts of a JSON value one by one are JSON values. -/
theorem isJson_elements {v : Value} (h : v.isJson = true) {items : List Value}
    (helements : v.elements = .ok items) : ∀ x ∈ items, x.isJson = true := by
  cases v with
  | sequence access xs =>
      cases helements
      exact isJson_items? h (by rw [items?, hasReference_of_json _ h]; rfl)
  | mapping access es =>
      cases helements
      intro x hx
      obtain ⟨e, he, rfl⟩ := List.mem_map.mp hx
      obtain ⟨name, hname⟩ := (Entries.isJson_iff.mp h e he).1
      rw [hname]
      rfl
  | str s =>
      cases helements
      intro x hx
      obtain ⟨c, -, rfl⟩ := List.mem_map.mp hx
      rfl
  | bytes | set => cases h
  | _ => cases helements

theorem isJson_lookUp {v : Value} (h : v.isJson = true) {name : String} {found : Option Value}
    (hfound : v.lookUp name = .ok found) : (found.getD .null).isJson = true := by
  unfold lookUp at hfound
  split at hfound
  next es hes =>
    cases hfound
    exact (isJson_entries? h hes).getD name rfl
  next => cases hfound

end Value

/-! Merges. -/

/-- Merging JSON values gives one. -/
theorem Entries.isJson_kept : KeptByMerging (fun v => v.isJson = true) (fun v => v.isJson = true)
    Entries.IsJson Entries.IsJson where
  copy v hv := (Value.isJson_withAccess .writable v).trans hv
  entries _ es hv := (Value.entriesJson_withAccessEntries .writable es).trans hv
  object _ hes := hes
  get? _ _ _ hes hv := hes.get? hv
  under _ _ hv := hv
  head _ _ _ hes := (Entries.isJson_cons.mp hes).2.1
  tail _ _ _ hes := (Entries.isJson_cons.mp hes).2.2
  put _ _ _ _ _ hbase hes hw := by
    obtain ⟨⟨name, rfl⟩, -⟩ := Entries.isJson_cons.mp hes
    exact hbase.put name hw

namespace Entries

theorem IsJson.thaw {es : Entries} (h : IsJson es) : IsJson (thaw es) :=
  (Value.entriesJson_withAccessEntries .writable es).trans h

theorem IsJson.deepMerge {base override : Entries} (hbase : IsJson base)
    (hoverride : IsJson override) : IsJson (base.deepMerge override) :=
  isJson_kept.mergeInto _ hbase.thaw override hoverride

/-- Making JSON entries a tree gives their writable copy. -/
theorem IsJson.asTree {given es : Entries} (h : IsJson given) (hes : given.asTree = .ok es) :
    IsJson es := by
  obtain ⟨-, rfl⟩ := asTree_eq_ok_iff.mp hes
  exact h.thaw

end Entries

end FunctionPipeline

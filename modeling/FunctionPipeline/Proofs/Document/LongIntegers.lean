import FunctionPipeline.Proofs.Document.Trees

/-!
Values whose integers can all be shown. Everything that is looked up in one is such a value too,
even where references lead back into it; and the copies of such trees are such trees.
-/

namespace FunctionPipeline

namespace Value

mutual

theorem hasLongInteger_withAccess (a : Access) :
    ∀ v : Value, hasLongInteger (withAccess a v) = hasLongInteger v
  | .sequence _ items => by
      simp only [withAccess, hasLongInteger, anyLongInteger_withAccessAll a items]
  | .mapping _ entries => by
      simp only [withAccess, hasLongInteger, entryLongInteger_withAccessEntries a entries]
  | .null | .bool _ | .int _ | .float _ | .str _ | .bytes _ | .date _ | .moment _ | .foreign _
  | .set _ | .enclosing _ => rfl

theorem anyLongInteger_withAccessAll (a : Access) :
    ∀ items : List Value, anyLongInteger (withAccessAll a items) = anyLongInteger items
  | [] => rfl
  | x :: xs => by
      simp only [withAccessAll, anyLongInteger, hasLongInteger_withAccess a x,
        anyLongInteger_withAccessAll a xs]

theorem entryLongInteger_withAccessEntries (a : Access) :
    ∀ es : List (Value × Value), entryLongInteger (withAccessEntries a es) = entryLongInteger es
  | [] => rfl
  | (k, v) :: es => by
      simp only [withAccessEntries, entryLongInteger, hasLongInteger_withAccess a v,
        entryLongInteger_withAccessEntries a es]

end

mutual

/-- A value put in for references adds no long integers unless it holds one. -/
theorem hasLongInteger_resolve {whole : Value} (hwhole : whole.hasLongInteger = false)
    (depth : Nat) :
    ∀ v : Value, v.hasLongInteger = false → (resolve whole depth v).hasLongInteger = false
  | .sequence _ items, h => anyLongInteger_resolveAll hwhole (depth + 1) items h
  | .mapping _ entries, h => entryLongInteger_resolveEntries hwhole (depth + 1) entries h
  | .enclosing levels, _ => by
      rw [resolve]
      split
      · exact hwhole
      · rfl
  | .null, h | .bool _, h | .int _, h | .float _, h | .str _, h | .bytes _, h | .date _, h
  | .moment _, h | .foreign _, h | .set _, h => h

theorem anyLongInteger_resolveAll {whole : Value} (hwhole : whole.hasLongInteger = false)
    (depth : Nat) :
    ∀ items : List Value, anyLongInteger items = false →
      anyLongInteger (resolveAll whole depth items) = false
  | [], _ => rfl
  | x :: xs, h => by
      simp only [anyLongInteger, Bool.or_eq_false_iff] at h
      simp only [resolveAll, anyLongInteger, Bool.or_eq_false_iff]
      exact ⟨hasLongInteger_resolve hwhole depth x h.1,
        anyLongInteger_resolveAll hwhole depth xs h.2⟩

theorem entryLongInteger_resolveEntries {whole : Value} (hwhole : whole.hasLongInteger = false)
    (depth : Nat) :
    ∀ es : List (Value × Value), entryLongInteger es = false →
      entryLongInteger (resolveEntries whole depth es) = false
  | [], _ => rfl
  | (k, v) :: es, h => by
      simp only [entryLongInteger, Bool.or_eq_false_iff] at h
      simp only [resolveEntries, entryLongInteger, Bool.or_eq_false_iff]
      exact ⟨⟨h.1.1, hasLongInteger_resolve hwhole depth v h.1.2⟩,
        entryLongInteger_resolveEntries hwhole depth es h.2⟩

end

/-- A value whose integers can all be shown. -/
def IsShort (v : Value) : Prop := v.hasLongInteger = false

def IsShown (v : Value) : Prop := v.hasReference = false ∧ v.hasLongInteger = false

theorem areShort_iff {vs : List Value} :
    anyLongInteger vs = false ↔ ∀ v ∈ vs, v.hasLongInteger = false := by
  induction vs with
  | nil => simp [anyLongInteger]
  | cons v vs ih => simp [anyLongInteger, ih]

/-- A part that holds a long integer stands in a value that does. -/
theorem hasLongInteger_of_part {whole part : Value} (hpart : whole.IsShort → part.IsShort)
    (hlong : part.hasLongInteger = true) : whole.hasLongInteger = true := by
  cases hwhole : whole.hasLongInteger with
  | true => rfl
  | false =>
      have hshort : part.hasLongInteger = false := hpart hwhole
      rw [hlong] at hshort
      cases hshort

theorem IsShort.shown {v : Value} (h : v.IsShort) : v.shown = .ok v.text := by
  unfold Value.shown
  rw [if_neg (by rw [h]; exact Bool.false_ne_true)]

end Value

namespace Entries

def IsShort (es : Entries) : Prop := Value.entryLongInteger es = false

def IsShown (es : Entries) : Prop :=
  Value.entryReference es = false ∧ Value.entryLongInteger es = false

theorem isShort_cons {k v : Value} {es : Entries} :
    IsShort ((k, v) :: es) ↔ (k.IsShort ∧ v.IsShort) ∧ IsShort es := by
  simp only [IsShort, Value.IsShort, Value.entryLongInteger, Bool.or_eq_false_iff]

theorem isShort_iff {es : Entries} : IsShort es ↔ ∀ e ∈ es, e.1.IsShort ∧ e.2.IsShort := by
  induction es with
  | nil => simp [IsShort, Value.entryLongInteger]
  | cons e es ih =>
      obtain ⟨k, v⟩ := e
      rw [isShort_cons, ih, List.forall_mem_cons]

theorem IsShort.key {es : Entries} (h : IsShort es) {e : Value × Value} (he : e ∈ es) :
    e.1.IsShort := (isShort_iff.mp h e he).1

theorem IsShort.value {es : Entries} (h : IsShort es) {e : Value × Value} (he : e ∈ es) :
    e.2.IsShort := (isShort_iff.mp h e he).2

theorem isShown_nil : IsShown [] := ⟨rfl, rfl⟩

theorem isShown_iff {es : Entries} : IsShown es ↔ ∀ e ∈ es, e.1.IsShort ∧ e.2.IsShown := by
  rw [IsShown, Value.entryReference_eq_false_iff]
  constructor
  · intro h e he
    exact ⟨IsShort.key h.2 he, h.1 e he, IsShort.value h.2 he⟩
  · intro h
    exact ⟨fun e he => (h e he).2.1, isShort_iff.mpr fun e he => ⟨(h e he).1, (h e he).2.2⟩⟩

theorem isShown_mapping {access : Access} {es : Entries} :
    (Value.mapping access es).IsShown ↔ IsShown es := by
  simp only [Value.IsShown, IsShown, Value.hasReference, Value.hasLongInteger]

theorem IsShown.freeze {es : Entries} (h : IsShown es) : IsShown (freeze es) := by
  constructor
  · rw [Entries.freeze, Value.entryReference_withAccessEntries, h.1]
  · rw [Entries.freeze, Value.entryLongInteger_withAccessEntries, h.2]

theorem IsShort.get? {es : Entries} (h : IsShort es) {key v : Value} (hv : get? es key = some v) :
    v.IsShort := of_get? (fun _ he => h.value he) hv

theorem IsShown.field? {es : Entries} (h : IsShown es) {name : String} {v : Value}
    (hfield : field? es name = some v) : v.IsShown :=
  of_get? (fun e he => (isShown_iff.mp h e he).2) hfield

theorem IsShort.getD {es : Entries} (h : IsShort es) (name : String) {other : Value}
    (hother : other.IsShort) : ((field? es name).getD other).IsShort :=
  of_getD (fun _ he => h.value he) name hother

theorem IsShort.orElse {es : Entries} (h : IsShort es) (name : String) {other : Value}
    (hother : other.IsShort) : (orElse es name other).IsShort :=
  of_orElse (fun _ he => h.value he) name hother

end Entries

namespace Value

theorem IsShort.entries? {v : Value} (h : v.IsShort) {es : Entries} (hes : v.entries? = some es) :
    Entries.IsShort es := by
  cases v with
  | mapping access entries =>
      simp only [Value.entries?, Option.some.injEq] at hes
      subst hes
      split
      · exact entryLongInteger_resolveEntries h 1 entries h
      · exact h
  | _ => cases hes

theorem IsShort.items? {v : Value} (h : v.IsShort) {items : List Value}
    (hitems : v.items? = some items) : ∀ x ∈ items, x.IsShort := by
  cases v with
  | sequence access found =>
      simp only [Value.items?, Option.some.injEq] at hitems
      subst hitems
      apply areShort_iff.mp
      split
      · exact anyLongInteger_resolveAll h 1 found h
      · exact h
  | _ => cases hitems

theorem IsShort.part? {v part : Value} (h : v.IsShort) {name : String}
    (hpart : v.part? name = some part) : part.IsShort := by
  obtain ⟨es, hes, hfield⟩ := Option.bind_eq_some_iff.mp hpart
  exact (h.entries? hes).get? hfield

theorem IsShort.subscript {v part : Value} (h : v.IsShort) {name : String}
    (hpart : v.subscript name = .ok part) : part.IsShort := h.part? (part?_of_subscript hpart)

end Value

end FunctionPipeline

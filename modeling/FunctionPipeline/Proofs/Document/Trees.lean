import FunctionPipeline.Document.Merge
import FunctionPipeline.Document.Path
import FunctionPipeline.State.Resource
import FunctionPipeline.Proofs.Document.TextKeys

/-!
Writable trees: values that hold no reference to a container around them and whose containers are
all writable. Bodies, connection details and statuses are kept as such trees. Copying a value a
second time changes nothing, and deep merge takes an override and its writable copy alike.
-/

namespace FunctionPipeline

namespace Value

mutual

/-- The access of the last copy counts. -/
theorem withAccess_withAccess (a b : Access) :
    ∀ v : Value, withAccess a (withAccess b v) = withAccess a v
  | .sequence _ items => by
      simp only [withAccess, withAccessAll_withAccessAll a b items]
  | .mapping _ entries => by
      simp only [withAccess, withAccessEntries_withAccessEntries a b entries]
  | .null | .bool _ | .int _ | .float _ | .str _ | .bytes _ | .date _ | .moment _ | .foreign _
  | .set _ | .enclosing _ => rfl

theorem withAccessAll_withAccessAll (a b : Access) :
    ∀ items : List Value, withAccessAll a (withAccessAll b items) = withAccessAll a items
  | [] => rfl
  | x :: xs => by
      simp only [withAccessAll, withAccess_withAccess a b x, withAccessAll_withAccessAll a b xs]

theorem withAccessEntries_withAccessEntries (a b : Access) :
    ∀ es : List (Value × Value),
      withAccessEntries a (withAccessEntries b es) = withAccessEntries a es
  | [] => rfl
  | (k, v) :: es => by
      simp only [withAccessEntries, withAccess_withAccess a b v,
        withAccessEntries_withAccessEntries a b es]

end

mutual

theorem hasReference_withAccess (a : Access) :
    ∀ v : Value, hasReference (withAccess a v) = hasReference v
  | .sequence _ items => by
      simp only [withAccess, hasReference, anyReference_withAccessAll a items]
  | .mapping _ entries => by
      simp only [withAccess, hasReference, entryReference_withAccessEntries a entries]
  | .null | .bool _ | .int _ | .float _ | .str _ | .bytes _ | .date _ | .moment _ | .foreign _
  | .set _ | .enclosing _ => rfl

theorem anyReference_withAccessAll (a : Access) :
    ∀ items : List Value, anyReference (withAccessAll a items) = anyReference items
  | [] => rfl
  | x :: xs => by
      simp only [withAccessAll, anyReference, hasReference_withAccess a x,
        anyReference_withAccessAll a xs]

theorem entryReference_withAccessEntries (a : Access) :
    ∀ es : List (Value × Value), entryReference (withAccessEntries a es) = entryReference es
  | [] => rfl
  | (k, v) :: es => by
      simp only [withAccessEntries, entryReference, hasReference_withAccess a v,
        entryReference_withAccessEntries a es]

end

theorem anyReference_eq_false_iff {items : List Value} :
    anyReference items = false ↔ ∀ x ∈ items, x.hasReference = false := by
  induction items with
  | nil => simp [anyReference]
  | cons x xs ih => rw [anyReference, Bool.or_eq_false_iff, ih, List.forall_mem_cons]

theorem entryReference_eq_false_iff {es : Entries} :
    entryReference es = false ↔ ∀ e ∈ es, e.2.hasReference = false := by
  induction es with
  | nil => simp [entryReference]
  | cons e es ih =>
      obtain ⟨k, v⟩ := e
      rw [entryReference, Bool.or_eq_false_iff, ih, List.forall_mem_cons]

def IsTree (v : Value) : Prop := v.hasReference = false ∧ v.thaw = v

/-- The writable copy of a value without references is a tree. -/
theorem isTree_thaw {v : Value} (h : v.hasReference = false) : v.thaw.IsTree :=
  ⟨by rw [thaw, hasReference_withAccess, h], withAccess_withAccess _ _ v⟩

theorem withAccessAll_eq_self_iff {a : Access} {items : List Value} :
    withAccessAll a items = items ↔ ∀ x ∈ items, withAccess a x = x := by
  induction items with
  | nil => simp [withAccessAll]
  | cons x xs ih => rw [withAccessAll, List.cons.injEq, ih, List.forall_mem_cons]

theorem isTree_list {items : List Value} : (Value.list items).IsTree ↔ ∀ x ∈ items, x.IsTree := by
  simp only [IsTree, hasReference, anyReference_eq_false_iff, thaw, withAccess, sequence.injEq,
    true_and, withAccessAll_eq_self_iff]
  constructor
  · exact fun h x hx => ⟨h.1 x hx, h.2 x hx⟩
  · exact fun h => ⟨fun x hx => (h x hx).1, fun x hx => (h x hx).2⟩

end Value

namespace Entries

def IsTree (es : Entries) : Prop := Value.entryReference es = false ∧ thaw es = es

theorem isTree_nil : IsTree [] := ⟨rfl, rfl⟩

theorem isTree_cons {k v : Value} {es : Entries} :
    IsTree ((k, v) :: es) ↔ v.IsTree ∧ IsTree es := by
  simp only [IsTree, Value.IsTree, Value.entryReference, thaw, Value.withAccessEntries, Value.thaw,
    Bool.or_eq_false_iff, List.cons.injEq, Prod.mk.injEq, true_and]
  exact and_and_and_comm

theorem isTree_iff {es : Entries} : IsTree es ↔ ∀ e ∈ es, e.2.IsTree := by
  induction es with
  | nil => simp [isTree_nil]
  | cons e es ih =>
      obtain ⟨k, v⟩ := e
      rw [isTree_cons, ih, List.forall_mem_cons]

/-- The writable copy of entries without references is a tree. -/
theorem isTree_thaw {es : Entries} (h : Value.entryReference es = false) : IsTree (thaw es) :=
  ⟨by rw [thaw, Value.entryReference_withAccessEntries, h],
    Value.withAccessEntries_withAccessEntries _ _ es⟩

theorem isTree_object {es : Entries} : (Value.object es).IsTree ↔ IsTree es := by
  simp [Value.IsTree, IsTree, Value.hasReference, Value.thaw, thaw, Value.withAccess]

/-- A mapping that is a tree is writable. -/
theorem isTree_mapping {access : Access} {es : Entries} (h : (Value.mapping access es).IsTree) :
    access = .writable ∧ IsTree es := by
  obtain ⟨hreference, hthaw⟩ := h
  simp only [Value.thaw, Value.withAccess, Value.mapping.injEq] at hthaw
  exact ⟨hthaw.1.symm, hreference, hthaw.2⟩

theorem IsTree.get? {es : Entries} (h : IsTree es) {key v : Value} (hv : get? es key = some v) :
    v.IsTree := of_get? (isTree_iff.mp h) hv

theorem IsTree.put {es : Entries} (h : IsTree es) (key : Value) {v : Value} (hv : v.IsTree) :
    IsTree (put es key v) :=
  isTree_iff.mpr (forall_mem_put (isTree_iff.mp h) hv fun _ _ _ => hv)

theorem IsTree.filter {es : Entries} (h : IsTree es) (p : Value × Value → Bool) :
    IsTree (es.filter p) :=
  isTree_iff.mpr fun e he => isTree_iff.mp h e (List.mem_filter.mp he).1

/-- Making entries trees gives their writable copy if it gives anything. -/
theorem asTree_eq_ok_iff {es given : Entries} :
    given.asTree = .ok es ↔ Value.entryReference given = false ∧ es = thaw given := by
  unfold asTree
  split
  next h => simp [h]
  next h => simp [h, eq_comm]

theorem IsTree.asTree {es : Entries} (h : IsTree es) : es.asTree = .ok es :=
  asTree_eq_ok_iff.mpr ⟨h.1, h.2.symm⟩

end Entries

/-- A path leads from a mapping without references to what its rest leads to from below. -/
theorem Value.along?_cons {es : Entries} (h : entryReference es = false) (access : Access)
    (key : Value) (rest : List Value) :
    (Value.mapping access es).along? (key :: rest) =
      (Entries.get? es key).bind fun v => v.along? rest := by
  have hentries : (Value.mapping access es).entries? = some es := by
    simp [Value.entries?, Value.hasReference, h]
  rw [Value.along?, hentries]
  dsimp only
  cases Entries.get? es key <;> rfl

end FunctionPipeline

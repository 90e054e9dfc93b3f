import FunctionPipeline.Proofs.Document.TextKeys

/-!
Closed values: every reference in one leads to a container of the value itself, as in anything that
can be handed over. What is looked up in a closed value is closed, because the references to the
value itself were resolved; and a mapping of closed values is looked into as it stands.
-/

namespace FunctionPipeline

namespace Value

mutual

/-- Whether references lead at most so many levels out of a value. -/
def closedAt (depth : Nat) : Value → Bool
  | .sequence _ items => allClosedAt (depth + 1) items
  | .mapping _ entries => entriesClosedAt (depth + 1) entries
  | .enclosing levels => levels ≤ depth
  | _ => true

def allClosedAt (depth : Nat) : List Value → Bool
  | [] => true
  | x :: xs => closedAt depth x && allClosedAt depth xs

def entriesClosedAt (depth : Nat) : List (Value × Value) → Bool
  | [] => true
  | (_, v) :: es => closedAt depth v && entriesClosedAt depth es

end

mutual

theorem closedAt_mono {depth further : Nat} (h : depth ≤ further) :
    ∀ v : Value, closedAt depth v = true → closedAt further v = true
  | .sequence _ items, hv => allClosedAt_mono (Nat.succ_le_succ h) items hv
  | .mapping _ entries, hv => entriesClosedAt_mono (Nat.succ_le_succ h) entries hv
  | .enclosing levels, hv => by
      simp only [closedAt, decide_eq_true_eq] at hv ⊢
      omega
  | .null, _ | .bool _, _ | .int _, _ | .float _, _ | .str _, _ | .bytes _, _ | .date _, _
  | .moment _, _ | .foreign _, _ | .set _, _ => rfl

theorem allClosedAt_mono {depth further : Nat} (h : depth ≤ further) :
    ∀ items : List Value, allClosedAt depth items = true → allClosedAt further items = true
  | [], _ => rfl
  | x :: xs, hitems => by
      simp only [allClosedAt, Bool.and_eq_true] at hitems ⊢
      exact ⟨closedAt_mono h x hitems.1, allClosedAt_mono h xs hitems.2⟩

theorem entriesClosedAt_mono {depth further : Nat} (h : depth ≤ further) :
    ∀ es : List (Value × Value),
      entriesClosedAt depth es = true → entriesClosedAt further es = true
  | [], _ => rfl
  | (_, v) :: es, hes => by
      simp only [entriesClosedAt, Bool.and_eq_true] at hes ⊢
      exact ⟨closedAt_mono h v hes.1, entriesClosedAt_mono h es hes.2⟩

end

mutual

/-- A value without references is closed. -/
theorem closedAt_of_tree (depth : Nat) :
    ∀ v : Value, v.hasReference = false → closedAt depth v = true
  | .sequence _ items, h => allClosedAt_of_trees (depth + 1) items h
  | .mapping _ entries, h => entriesClosedAt_of_trees (depth + 1) entries h
  | .enclosing _, h => by simp [hasReference] at h
  | .null, _ | .bool _, _ | .int _, _ | .float _, _ | .str _, _ | .bytes _, _ | .date _, _
  | .moment _, _ | .foreign _, _ | .set _, _ => rfl

theorem allClosedAt_of_trees (depth : Nat) :
    ∀ items : List Value, anyReference items = false → allClosedAt depth items = true
  | [], _ => rfl
  | x :: xs, h => by
      simp only [anyReference, Bool.or_eq_false_iff] at h
      simp only [allClosedAt, Bool.and_eq_true]
      exact ⟨closedAt_of_tree depth x h.1, allClosedAt_of_trees depth xs h.2⟩

theorem entriesClosedAt_of_trees (depth : Nat) :
    ∀ es : List (Value × Value), entryReference es = false → entriesClosedAt depth es = true
  | [], _ => rfl
  | (_, v) :: es, h => by
      simp only [entryReference, Bool.or_eq_false_iff] at h
      simp only [entriesClosedAt, Bool.and_eq_true]
      exact ⟨closedAt_of_tree depth v h.1, entriesClosedAt_of_trees depth es h.2⟩

end

mutual

/-- Where no reference leads as far as a level, nothing is put in for that level. -/
theorem resolve_of_closedAt (whole : Value) {depth level : Nat} (h : depth < level) :
    ∀ v : Value, closedAt depth v = true → resolve whole level v = v
  | .sequence _ items, hv => by
      rw [resolve, resolveAll_of_closedAt whole (Nat.succ_lt_succ h) items hv]
  | .mapping _ entries, hv => by
      rw [resolve, resolveEntries_of_closedAt whole (Nat.succ_lt_succ h) entries hv]
  | .enclosing levels, hv => by
      simp only [closedAt, decide_eq_true_eq] at hv
      exact if_neg (by omega)
  | .null, _ | .bool _, _ | .int _, _ | .float _, _ | .str _, _ | .bytes _, _ | .date _, _
  | .moment _, _ | .foreign _, _ | .set _, _ => rfl

theorem resolveAll_of_closedAt (whole : Value) {depth level : Nat} (h : depth < level) :
    ∀ items : List Value, allClosedAt depth items = true → resolveAll whole level items = items
  | [], _ => rfl
  | x :: xs, hitems => by
      simp only [allClosedAt, Bool.and_eq_true] at hitems
      rw [resolveAll, resolve_of_closedAt whole h x hitems.1,
        resolveAll_of_closedAt whole h xs hitems.2]

theorem resolveEntries_of_closedAt (whole : Value) {depth level : Nat} (h : depth < level) :
    ∀ es : List (Value × Value),
      entriesClosedAt depth es = true → resolveEntries whole level es = es
  | [], _ => rfl
  | (_, v) :: es, hes => by
      simp only [entriesClosedAt, Bool.and_eq_true] at hes
      rw [resolveEntries, resolve_of_closedAt whole h v hes.1,
        resolveEntries_of_closedAt whole h es hes.2]

end

mutual

/-- With a closed value put in for the outermost level, references lead one level less far. -/
theorem closedAt_resolve {whole : Value} (hwhole : closedAt 0 whole = true) (depth : Nat) :
    ∀ v : Value, closedAt (depth + 1) v = true →
      closedAt depth (resolve whole (depth + 1) v) = true
  | .sequence _ items, hv => allClosedAt_resolveAll hwhole (depth + 1) items hv
  | .mapping _ entries, hv => entriesClosedAt_resolveEntries hwhole (depth + 1) entries hv
  | .enclosing levels, hv => by
      simp only [resolve]
      split
      next => exact closedAt_mono (Nat.zero_le depth) whole hwhole
      next hne =>
        simp only [closedAt, decide_eq_true_eq] at hv ⊢
        omega
  | .null, _ | .bool _, _ | .int _, _ | .float _, _ | .str _, _ | .bytes _, _ | .date _, _
  | .moment _, _ | .foreign _, _ | .set _, _ => rfl

theorem allClosedAt_resolveAll {whole : Value} (hwhole : closedAt 0 whole = true) (depth : Nat) :
    ∀ items : List Value, allClosedAt (depth + 1) items = true →
      allClosedAt depth (resolveAll whole (depth + 1) items) = true
  | [], _ => rfl
  | x :: xs, hitems => by
      simp only [allClosedAt, Bool.and_eq_true] at hitems
      simp only [resolveAll, allClosedAt, Bool.and_eq_true]
      exact ⟨closedAt_resolve hwhole depth x hitems.1,
        allClosedAt_resolveAll hwhole depth xs hitems.2⟩

theorem entriesClosedAt_resolveEntries {whole : Value} (hwhole : closedAt 0 whole = true)
    (depth : Nat) : ∀ es : List (Value × Value), entriesClosedAt (depth + 1) es = true →
      entriesClosedAt depth (resolveEntries whole (depth + 1) es) = true
  | [], _ => rfl
  | (_, v) :: es, hes => by
      simp only [entriesClosedAt, Bool.and_eq_true] at hes
      simp only [resolveEntries, entriesClosedAt, Bool.and_eq_true]
      exact ⟨closedAt_resolve hwhole depth v hes.1,
        entriesClosedAt_resolveEntries hwhole depth es hes.2⟩

end

theorem allClosedAt_iff {depth : Nat} {items : List Value} :
    allClosedAt depth items = true ↔ ∀ x ∈ items, closedAt depth x = true := by
  induction items with
  | nil => simp [allClosedAt]
  | cons x xs ih => rw [allClosedAt, Bool.and_eq_true, ih, List.forall_mem_cons]

/-- A value whose references all lead to containers of its own. -/
def IsClosed (v : Value) : Prop := closedAt 0 v = true

instance (v : Value) : Decidable v.IsClosed := inferInstanceAs (Decidable (_ = true))

theorem isClosed_of_tree {v : Value} (h : v.hasReference = false) : v.IsClosed :=
  closedAt_of_tree 0 v h

@[simp] theorem isClosed_str (s : String) : (Value.str s).IsClosed := rfl

@[simp] theorem isClosed_bool (b : Bool) : (Value.bool b).IsClosed := rfl

@[simp] theorem isClosed_null : Value.null.IsClosed := rfl

end Value

namespace Entries

def IsClosed (es : Entries) : Prop := Value.entriesClosedAt 0 es = true

@[simp] theorem isClosed_nil : IsClosed [] := rfl

@[simp] theorem isClosed_cons {k v : Value} {es : Entries} :
    IsClosed ((k, v) :: es) ↔ v.IsClosed ∧ IsClosed es := by
  simp only [IsClosed, Value.IsClosed, Value.entriesClosedAt, Bool.and_eq_true]

theorem isClosed_iff {es : Entries} : IsClosed es ↔ ∀ e ∈ es, e.2.IsClosed := by
  induction es with
  | nil => simp
  | cons e es ih =>
      obtain ⟨k, v⟩ := e
      rw [isClosed_cons, ih, List.forall_mem_cons]

@[simp] theorem isClosed_append {es others : Entries} :
    IsClosed (es ++ others) ↔ IsClosed es ∧ IsClosed others := by
  simp only [isClosed_iff, List.forall_mem_append]

theorem IsClosed.get? {es : Entries} (h : IsClosed es) {key v : Value}
    (hv : get? es key = some v) : v.IsClosed := of_get? (isClosed_iff.mp h) hv

theorem IsClosed.getD {es : Entries} (h : IsClosed es) (name : String) {other : Value}
    (hother : other.IsClosed) : ((field? es name).getD other).IsClosed :=
  of_getD (isClosed_iff.mp h) name hother

theorem IsClosed.orElse {es : Entries} (h : IsClosed es) (name : String) {other : Value}
    (hother : other.IsClosed) : (orElse es name other).IsClosed :=
  of_orElse (isClosed_iff.mp h) name hother

end Entries

namespace Value

/-- A mapping of closed values is closed. -/
theorem isClosed_mapping {access : Access} {es : Entries} (h : Entries.IsClosed es) :
    (Value.mapping access es).IsClosed :=
  entriesClosedAt_mono (Nat.zero_le 1) es h

/-- A sequence of closed values is closed. -/
theorem isClosed_sequence {access : Access} {items : List Value} (h : ∀ x ∈ items, x.IsClosed) :
    (Value.sequence access items).IsClosed :=
  allClosedAt_mono (Nat.zero_le 1) items (allClosedAt_iff.mpr h)

/-- A mapping of closed values is looked into as it stands. -/
theorem entries?_of_closed {access : Access} {es : Entries} (h : Entries.IsClosed es) :
    (Value.mapping access es).entries? = some es := by
  simp only [entries?, resolveEntries_of_closedAt _ Nat.zero_lt_one es h, ite_self]

/-- The items of a sequence of closed values are those that stand there. -/
theorem items?_of_closed {access : Access} {items : List Value} (h : ∀ x ∈ items, x.IsClosed) :
    (Value.sequence access items).items? = some items := by
  simp only [items?, resolveAll_of_closedAt _ Nat.zero_lt_one items (allClosedAt_iff.mpr h),
    ite_self]

/-- The entries of a closed mapping are closed. -/
theorem IsClosed.entries? {v : Value} (h : v.IsClosed) {es : Entries}
    (hes : v.entries? = some es) : Entries.IsClosed es := by
  cases v with
  | mapping access entries =>
      simp only [Value.entries?, Option.some.injEq] at hes
      split at hes
      next =>
        subst hes
        exact entriesClosedAt_resolveEntries h 0 entries h
      next hreference =>
        subst hes
        exact entriesClosedAt_of_trees 0 _ (by simpa [hasReference] using hreference)
  | _ => cases hes

/-- The items of a closed sequence are closed. -/
theorem IsClosed.items? {v : Value} (h : v.IsClosed) {items : List Value}
    (hitems : v.items? = some items) : ∀ x ∈ items, x.IsClosed := by
  cases v with
  | sequence access found =>
      simp only [Value.items?, Option.some.injEq] at hitems
      split at hitems
      next =>
        subst hitems
        exact allClosedAt_iff.mp (allClosedAt_resolveAll h 0 found h)
      next hreference =>
        subst hitems
        exact allClosedAt_iff.mp
          (allClosedAt_of_trees 0 _ (by simpa [hasReference] using hreference))
  | _ => cases hitems

/-- What stands under a text key of a closed value is closed. -/
theorem IsClosed.part? {v part : Value} (h : v.IsClosed) {name : String}
    (hpart : v.part? name = some part) : part.IsClosed := by
  obtain ⟨es, hes, hfield⟩ := Option.bind_eq_some_iff.mp hpart
  exact (h.entries? hes).get? hfield

theorem IsClosed.subscript {v part : Value} (h : v.IsClosed) {name : String}
    (hpart : v.subscript name = .ok part) : part.IsClosed := h.part? (part?_of_subscript hpart)

theorem get?_resolveEntries (whole : Value) (level : Nat) (es : Entries) (key : Value) :
    Entries.get? (resolveEntries whole level es) key =
      (Entries.get? es key).map (resolve whole level) := by
  induction es with
  | nil => rfl
  | cons e es ih =>
      obtain ⟨k, v⟩ := e
      rw [resolveEntries, Entries.get?_cons, Entries.get?_cons, ih]
      split <;> rfl

/-- A closed part of a mapping is found as it stands there. -/
theorem subscript_of_field {access : Access} {es : Entries} {name : String} {v : Value}
    (hfield : Entries.field? es name = some v) (hclosed : v.IsClosed) :
    (Value.mapping access es).subscript name = .ok v := by
  have hresolved : ((Value.mapping access es).entries?).bind (Entries.field? · name) = some v := by
    simp only [entries?, Option.bind_some]
    split
    · rw [Entries.field?, get?_resolveEntries]
      rw [Entries.field?] at hfield
      rw [hfield, Option.map_some, resolve_of_closedAt _ Nat.zero_lt_one v hclosed]
    · exact hfield
  simp only [subscript, hresolved]

/-- What stands under a text key of a mapping of closed values is found as it stands there. -/
theorem subscript_of_closed {access : Access} {es : Entries} {name : String} {v : Value}
    (hes : Entries.IsClosed es) (hfield : Entries.field? es name = some v) :
    (Value.mapping access es).subscript name = .ok v :=
  subscript_of_field hfield (hes.get? hfield)

end Value

end FunctionPipeline

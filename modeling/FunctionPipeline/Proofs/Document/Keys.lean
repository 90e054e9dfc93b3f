import FunctionPipeline.Proofs.Document.TextKeys

/-!
Keys of every kind. Values that can be keys fall into classes of equal ones: numbers of one value,
moments that fall together, and else each value for itself. Under such keys a mapping is a finite
map that keeps the order of first writing, and a mapping without equal keys is settled by its keys
in order and by what stands under each of them.
-/

namespace FunctionPipeline

namespace Value

mutual

/-- One value for each class of equal keys. A number's is its place on the number line and a
moment's its instant, in a set, which is no key itself. -/
def keyForm : Value → Value
  | .bool b => .set [.int (if b then Binary64.unit else 0)]
  | .int i => .set [.int (i * Binary64.unit)]
  | .float (.finite negative rank) =>
      .set [.int (if negative then -(Binary64.units rank : Int) else Binary64.units rank)]
  | .moment t => .set [.bool t.offset.isSome, .int t.instant]
  | .sequence a items => .sequence a (keyForms items)
  | v => v

def keyForms : List Value → List Value
  | [] => []
  | v :: vs => keyForm v :: keyForms vs

end

private theorem units_eq_iff (i j : Int) : i * Binary64.unit = j * Binary64.unit ↔ i = j :=
  Int.mul_eq_mul_right_iff (by have := Binary64.unit_pos; omega)

mutual

/-- Keys are equal exactly if they are of one class. -/
theorem equals_iff_keyForm : ∀ {v w : Value}, v.unhashable? = none → w.unhashable? = none →
    (v.equals w = true ↔ v.keyForm = w.keyForm)
  | .sequence a xs, w, hv, hw => by
      cases a with
      | writable => simp [unhashable?] at hv
      | readOnly =>
          cases w with
          | sequence b ys =>
              cases b with
              | writable => simp [unhashable?] at hw
              | readOnly =>
                  rw [unhashable?] at hv hw
                  simpa [equals, keyForm] using equalsAll_iff_keyForms hv hw
          | float y =>
              cases y <;>
                simp only [equals, scalarEquals, keyForm, position?, Bool.false_eq_true,
                  reduceCtorEq]
          | _ =>
              simp only [equals, scalarEquals, keyForm, position?, Bool.false_eq_true,
                reduceCtorEq]
  | .null, w, _, hw | .bool _, w, _, hw | .int _, w, _, hw | .str _, w, _, hw
  | .bytes _, w, _, hw | .date _, w, _, hw | .moment _, w, _, hw | .foreign _, w, _, hw
  | .enclosing _, w, _, hw | .float (.finite ..), w, _, hw | .float (.infinite true), w, _, hw
  | .float (.infinite false), w, _, hw | .float (.nan _), w, _, hw => by
      cases w with
      | float y =>
          cases y with
          | infinite negative =>
              cases negative <;>
                simp only [equals, scalarEquals, keyForm, position?, Binary64.position?,
                  Binary64.scaled?, Option.map_some, beq_iff_eq, Bool.false_eq_true, reduceCtorEq,
                  float.injEq, Binary64.infinite.injEq]
          | _ =>
              simp only [equals, scalarEquals, keyForm, position?, Binary64.position?,
                Binary64.scaled?, Option.map_some, beq_iff_eq, Bool.false_eq_true, reduceCtorEq,
                Binary64.Position.at.injEq, set.injEq, List.cons.injEq, int.injEq, float.injEq,
                Binary64.nan.injEq, and_true, and_self]
      | set => simp [unhashable?] at hw
      | _ =>
          simp only [equals, scalarEquals, keyForm, position?, Binary64.position?,
            Binary64.scaled?, Option.map_some, beq_iff_eq, Bool.false_eq_true, reduceCtorEq,
            Binary64.Position.at.injEq, set.injEq, List.cons.injEq, int.injEq, units_eq_iff,
            Moment.same, Bool.and_eq_true, str.injEq, bytes.injEq, date.injEq, bool.injEq,
            foreign.injEq, enclosing.injEq, and_true, and_self]
  | .set _, w, hv, _ | .mapping .writable _, w, hv, _ | .mapping .readOnly _, w, hv, _ => by
      simp [unhashable?] at hv

theorem equalsAll_iff_keyForms : ∀ {vs ws : List Value}, unhashableIn? vs = none →
    unhashableIn? ws = none → (equalsAll vs ws = true ↔ keyForms vs = keyForms ws)
  | [], [], _, _ => by simp [equalsAll, keyForms]
  | [], _ :: _, _, _ => by simp [equalsAll, keyForms]
  | _ :: _, [], _, _ => by simp [equalsAll, keyForms]
  | v :: vs, w :: ws, hv, hw => by
      rw [unhashableIn?] at hv hw
      split at hv
      · cases hv
      next hv' =>
        split at hw
        · cases hw
        next hw' =>
          simp [equalsAll, keyForms, equals_iff_keyForm hv' hw', equalsAll_iff_keyForms hv hw]

end

variable {u v w : Value}

theorem equals_self (hv : v.unhashable? = none) : v.equals v = true :=
  (equals_iff_keyForm hv hv).mpr rfl

theorem equals_comm (hv : v.unhashable? = none) (hw : w.unhashable? = none) :
    v.equals w = w.equals v := by
  rw [Bool.eq_iff_iff, equals_iff_keyForm hv hw, equals_iff_keyForm hw hv]
  exact eq_comm

/-- Equal keys equal the same keys. -/
theorem equals_congr (hu : u.unhashable? = none) (hv : v.unhashable? = none)
    (hw : w.unhashable? = none) (h : u.equals v = true) : u.equals w = v.equals w := by
  rw [Bool.eq_iff_iff, equals_iff_keyForm hu hw, equals_iff_keyForm hv hw,
    (equals_iff_keyForm hu hv).mp h]

end Value

namespace Entries

variable {α : Type}

def AreKeys (es : List (Value × α)) : Prop := ∀ e ∈ es, e.1.unhashable? = none

theorem AreKeys.tail {e : Value × α} {es : List (Value × α)} (h : AreKeys (e :: es)) : AreKeys es :=
  fun f hf => h f (List.mem_cons_of_mem e hf)

theorem AreKeys.put {es : List (Value × α)} (h : AreKeys es) {k : Value}
    (hk : k.unhashable? = none) (v : α) : AreKeys (put es k v) :=
  forall_mem_put h hk fun e he _ => h e he

/-- What stands under a key after a write. -/
theorem get?_put {es : List (Value × α)} (h : AreKeys es) {k : Value} (hk : k.unhashable? = none)
    (v : α) {key : Value} (hkey : key.unhashable? = none) :
    get? (put es k v) key = if key.equals k then some v else get? es key := by
  induction es with
  | nil => simp [put, get?_cons, get?_nil]
  | cons e es ih =>
      obtain ⟨l, w⟩ := e
      have hl : l.unhashable? = none := h (l, w) (by simp)
      simp only [put]
      split
      next heq =>
        -- the written entry keeps its key, which equals what the new one equals
        have hsame : key.equals l = key.equals k := by
          rw [Value.equals_comm hkey hl, Value.equals_comm hkey hk,
            Value.equals_congr hk hl hkey heq]
        simp only [get?_cons, hsame]
        split <;> rfl
      next hne =>
        simp only [get?_cons, ih h.tail]
        by_cases hhit : key.equals l = true
        · have hother : key.equals k = false := by
            rw [Value.equals_congr hkey hl hk hhit, Value.equals_comm hl hk]
            exact Bool.eq_false_iff.mpr hne
          simp [hhit, hother]
        · simp [hhit]

/-- Equal keys lead to the same. -/
theorem get?_congr {es : List (Value × α)} (h : AreKeys es) {k l : Value}
    (hk : k.unhashable? = none) (hl : l.unhashable? = none) (heq : k.equals l = true) :
    get? es k = get? es l := by
  induction es with
  | nil => rfl
  | cons e es ih =>
      have he : e.1.unhashable? = none := h e (by simp)
      rw [get?_cons, get?_cons, ih h.tail, Value.equals_congr hk hl he heq]

/-- A key that equals one that is new leads to nothing. -/
theorem get?_of_new {es : List (Value × α)} (h : AreKeys es) {k : Value} (hk : k.unhashable? = none)
    (hnew : ∀ e ∈ es, k.equals e.1 = false) {key : Value} (hkey : key.unhashable? = none)
    (heq : key.equals k = true) : get? es key = none := by
  rw [get?_congr h hkey hk heq, ← Option.not_isSome_iff_eq_none, get?_isSome_iff]
  rintro ⟨l, hl, hequal⟩
  obtain ⟨e, he, rfl⟩ := List.mem_map.mp hl
  rw [hnew e he] at hequal
  cases hequal

def Distinct (es : List (Value × α)) : Prop := (keys es).Pairwise fun k l => k.equals l = false

theorem Distinct.put {es : List (Value × α)} (h : Distinct es) (hes : AreKeys es) {k : Value}
    (hk : k.unhashable? = none) (v : α) : Distinct (put es k v) := by
  cases hget : get? es k with
  | some w => rwa [Distinct, keys_put_of_isSome v (by rw [hget]; rfl)]
  | none =>
      have hnew : ∀ l ∈ keys es, l.equals k = false := by
        intro l hl
        obtain ⟨e, he, rfl⟩ := List.mem_map.mp hl
        rw [Value.equals_comm (hes e he) hk, Bool.eq_false_iff]
        intro heq
        have hthere := get?_isSome_iff.mpr ⟨e.1, hl, heq⟩
        rw [hget] at hthere
        cases hthere
      rw [Distinct, put_of_isNone v hget, keys, List.map_append, List.pairwise_append]
      exact ⟨h, by simp, fun l hl m hm => by simpa [List.mem_singleton.mp hm] using hnew l hl⟩

/-- Entries with the same distinct keys in order, and the same under each, are the same. -/
theorem ext_of_keys {es fs : List (Value × α)} (hes : AreKeys es) (hdistinct : Distinct es)
    (hkeys : keys es = keys fs) (hget : ∀ k ∈ keys es, get? es k = get? fs k) : es = fs := by
  induction es generalizing fs with
  | nil =>
      cases fs with
      | nil => rfl
      | cons => simp [keys] at hkeys
  | cons e es ih =>
      cases fs with
      | nil => simp [keys] at hkeys
      | cons f fs =>
          obtain ⟨k, v⟩ := e
          obtain ⟨l, w⟩ := f
          simp only [keys, List.map_cons, List.cons.injEq] at hkeys
          obtain ⟨rfl, hrest⟩ := hkeys
          have hk : k.unhashable? = none := hes (k, v) (by simp)
          have hhead : v = w := by
            have hfirst := hget k (by simp [keys])
            simpa [get?_cons, Value.equals_self hk] using hfirst
          obtain ⟨hnew, hothers⟩ : (∀ l ∈ keys es, k.equals l = false) ∧ Distinct es := by
            simpa [Distinct, keys] using hdistinct
          rw [hhead, ih hes.tail hothers hrest fun l hl => ?_]
          have hunequal : l.equals k = false := by
            obtain ⟨e, he, rfl⟩ := List.mem_map.mp hl
            rw [Value.equals_comm (hes.tail e he) hk, hnew _ hl]
          have hunder := hget l (List.mem_cons_of_mem _ hl)
          simpa [get?_cons, hunequal] using hunder

end Entries

end FunctionPipeline

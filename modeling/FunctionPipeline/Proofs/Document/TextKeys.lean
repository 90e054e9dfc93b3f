import FunctionPipeline.Document.Access

/-!
Keys of mappings, and text keys. What a key leads to is the value of an entry, so it is as all of
them are. A text equals nothing but itself, so under text keys a mapping is a finite map that keeps
the order of first writing: `get?_put_str` and the `keys_put` theorems say what a write does, for
every entry list and every key.
-/

namespace FunctionPipeline

namespace Value

/-- A text equals itself only. -/
theorem str_equals_iff (s : String) (v : Value) : (Value.str s).equals v = true ↔ v = .str s := by
  have hposition : (Value.str s).position? = none := rfl
  cases v with
  | str t =>
      simp only [equals, scalarEquals, beq_iff_eq, str.injEq]
      exact eq_comm
  | _ => simp [equals, scalarEquals, hposition]

/-- Only the text itself equals a text. -/
theorem equals_str_iff (v : Value) (s : String) : v.equals (.str s) = true ↔ v = .str s := by
  have hposition : (Value.str s).position? = none := rfl
  cases v <;> simp [equals, scalarEquals, hposition]

theorem str_equals_self (s : String) : (Value.str s).equals (.str s) = true :=
  (str_equals_iff s _).mpr rfl

theorem equals_str_false {v : Value} {s : String} (h : v ≠ .str s) :
    v.equals (.str s) = false := by
  rw [Bool.eq_false_iff]
  exact fun heq => h ((equals_str_iff v s).mp heq)

/-- What should be there and is stands under the key of a mapping. -/
theorem part?_of_subscript {v part : Value} {name : String} (h : v.subscript name = .ok part) :
    v.part? name = some part := by
  unfold subscript at h
  split at h
  next =>
    split at h
    next found hfound =>
      cases h
      exact hfound
    next => cases h
  all_goals cases h

end Value

namespace Entries

variable {α : Type}

theorem get?_nil (key : Value) : get? ([] : List (Value × α)) key = none := rfl

theorem get?_cons (k : Value) (v : α) (es : List (Value × α)) (key : Value) :
    get? ((k, v) :: es) key = if key.equals k then some v else get? es key := by
  unfold get?
  rw [List.find?_cons]
  cases key.equals k <;> rfl

theorem field?_nil (name : String) : field? ([] : List (Value × α)) name = none := rfl

theorem field?_cons (key : String) (v : α) (es : List (Value × α)) (name : String) :
    field? ((.str key, v) :: es) name = if name = key then some v else field? es name := by
  have hkey : (Value.str name).equals (.str key) = true ↔ name = key := by
    rw [Value.str_equals_iff, Value.str.injEq]
    exact eq_comm
  simp only [field?, get?_cons, hkey]

/-- A key leads to something exactly if it equals a key that is there. -/
theorem get?_isSome_iff {es : List (Value × α)} {key : Value} :
    (get? es key).isSome = true ↔ ∃ k ∈ keys es, key.equals k = true := by
  induction es with
  | nil => simp [get?_nil, keys]
  | cons e es ih =>
      obtain ⟨k, v⟩ := e
      rw [get?_cons]
      simp only [keys, List.map_cons, List.mem_cons, exists_eq_or_imp] at ih ⊢
      split
      next heq => simp [heq]
      next hne => simp [ih, hne]

/-- What a key leads to is the value of an entry. -/
theorem exists_mem_of_get? {es : List (Value × α)} {key : Value} {v : α}
    (h : get? es key = some v) : ∃ k, (k, v) ∈ es := by
  obtain ⟨e, he, rfl⟩ := Option.map_eq_some_iff.mp h
  exact ⟨e.1, List.mem_of_find?_eq_some he⟩

/-- What holds of the values of all entries holds of what a key leads to. -/
theorem of_get? {P : α → Prop} {es : List (Value × α)} (h : ∀ e ∈ es, P e.2) {key : Value} {v : α}
    (hv : get? es key = some v) : P v := by
  obtain ⟨k, hmem⟩ := exists_mem_of_get? hv
  exact h _ hmem

/-- If it holds of something else too, so it does of the one that stands in for the other. -/
theorem of_getD {P : α → Prop} {es : List (Value × α)} (h : ∀ e ∈ es, P e.2) (name : String)
    {other : α} (hother : P other) : P ((field? es name).getD other) := by
  cases hfield : field? es name with
  | none => exact hother
  | some v => exact of_get? h hfield

theorem of_orElse {P : Value → Prop} {es : Entries} (h : ∀ e ∈ es, P e.2) (name : String)
    {other : Value} (hother : P other) : P (orElse es name other) := by
  unfold orElse
  split
  next v hfield =>
    split
    · exact of_get? h hfield
    · exact hother
  next => exact hother

/-- A write leaves what holds of all entries if it holds of the new value under each key in whose
place the value can be. -/
theorem forall_mem_put {P : Value × α → Prop} {es : List (Value × α)} {key : Value} {v : α}
    (h : ∀ e ∈ es, P e) (hnew : P (key, v))
    (hplace : ∀ e ∈ es, key.equals e.1 = true → P (e.1, v)) : ∀ e ∈ put es key v, P e := by
  induction es with
  | nil => simpa [put] using hnew
  | cons e es ih =>
      obtain ⟨k, w⟩ := e
      obtain ⟨he, hes⟩ := List.forall_mem_cons.mp h
      obtain ⟨hk, hrest⟩ := List.forall_mem_cons.mp hplace
      simp only [put]
      split
      next heq => exact List.forall_mem_cons.mpr ⟨hk heq, hes⟩
      next => exact List.forall_mem_cons.mpr ⟨he, ih hes hrest⟩

/-- What holds of all entries and of the one that is written holds of all entries after it. -/
theorem forall_mem_put_str {P : Value × α → Prop} {es : List (Value × α)} {name : String} {v : α}
    (h : ∀ e ∈ es, P e) (hnew : P (.str name, v)) : ∀ e ∈ put es (.str name) v, P e := by
  refine forall_mem_put h hnew fun e _ heq => ?_
  rw [(Value.str_equals_iff name e.1).mp heq]
  exact hnew

/-- So it does if entries with text keys are written one after the other. -/
theorem forall_mem_update {P : Value × α → Prop} {es fs : List (Value × α)} (hes : ∀ e ∈ es, P e)
    (hfs : ∀ e ∈ fs, (∃ name, e.1 = .str name) ∧ P e) : ∀ e ∈ update es fs, P e := by
  induction fs generalizing es with
  | nil => exact hes
  | cons f fs ih =>
      obtain ⟨⟨⟨name, hname⟩, hf⟩, hrest⟩ := List.forall_mem_cons.mp hfs
      obtain ⟨k, v⟩ := f
      obtain rfl : k = .str name := hname
      rw [update, List.foldl_cons]
      exact ih (forall_mem_put_str hes hf) hrest

/-- What stands under a key after a write under a text key. -/
theorem get?_put_str (es : List (Value × α)) (name : String) (v : α) (key : Value) :
    get? (put es (.str name) v) key =
      if key.equals (.str name) then some v else get? es key := by
  induction es with
  | nil => simp [put, get?_cons, get?_nil]
  | cons e es ih =>
      obtain ⟨k, w⟩ := e
      simp only [put]
      split
      next heq =>
        -- the written entry keeps its key, which is the name itself
        obtain rfl := (Value.str_equals_iff name k).mp heq
        simp only [get?_cons]
        split <;> rfl
      next hne =>
        simp only [get?_cons, ih]
        by_cases hk : key.equals k = true
        · have hname : key.equals (.str name) = false := by
            rw [Bool.eq_false_iff]
            intro heq
            obtain rfl := (Value.equals_str_iff key name).mp heq
            exact hne hk
          simp [hk, hname]
        · simp [hk]

theorem field?_put_self (es : List (Value × α)) (name : String) (v : α) :
    field? (put es (.str name) v) name = some v := by
  simp [field?, get?_put_str, Value.str_equals_self]

theorem field?_put_of_ne {name other : String} (es : List (Value × α)) (v : α)
    (h : other ≠ name) : field? (put es (.str name) v) other = field? es other := by
  have hkey : (Value.str other).equals (.str name) = false :=
    Value.equals_str_false fun heq => h (Value.str.inj heq)
  simp [field?, get?_put_str, hkey]

/-- Nothing stands under a text key exactly if it is no key. -/
theorem field?_eq_none_iff (es : List (Value × α)) (name : String) :
    field? es name = none ↔ .str name ∉ keys es := by
  rw [← Option.not_isSome_iff_eq_none, field?, get?_isSome_iff]
  simp [Value.str_equals_iff]

/-- A write under a key that is there keeps the keys. -/
theorem keys_put_of_isSome {es : List (Value × α)} {k : Value} (v : α)
    (h : (get? es k).isSome = true) : keys (put es k v) = keys es := by
  induction es with
  | nil => simp [get?_nil] at h
  | cons e es ih =>
      obtain ⟨l, w⟩ := e
      rw [get?_cons] at h
      simp only [put]
      split
      next => rfl
      next hne =>
        have hrest := ih (by simpa [hne] using h)
        simp only [keys, List.map_cons] at hrest ⊢
        rw [hrest]

/-- A write under a new key puts it at the end. -/
theorem put_of_isNone {es : List (Value × α)} {k : Value} (v : α) (h : get? es k = none) :
    put es k v = es ++ [(k, v)] := by
  induction es with
  | nil => rfl
  | cons e es ih =>
      obtain ⟨l, w⟩ := e
      rw [get?_cons] at h
      split at h
      · cases h
      next hne => simp [put, hne, ih h]

theorem keys_put_of_mem (es : List (Value × α)) (name : String) (v : α)
    (h : .str name ∈ keys es) : keys (put es (.str name) v) = keys es := by
  apply keys_put_of_isSome
  rw [← Option.ne_none_iff_isSome]
  exact fun hnone => (field?_eq_none_iff es name).mp hnone h

theorem put_of_not_mem (es : List (Value × α)) (name : String) (v : α)
    (h : .str name ∉ keys es) : put es (.str name) v = es ++ [(.str name, v)] :=
  put_of_isNone v ((field?_eq_none_iff es name).mpr h)

theorem keys_put_of_not_mem (es : List (Value × α)) (name : String) (v : α)
    (h : .str name ∉ keys es) : keys (put es (.str name) v) = keys es ++ [.str name] := by
  rw [put_of_not_mem es name v h]
  simp [keys]

/-- Entries with distinct text keys are what they are written to. -/
theorem ofList_of_distinct {es : List (Value × α)} (hkeys : (keys es).Nodup)
    (htexts : ∀ e ∈ es, ∃ s, e.1 = .str s) : ofList es = es := by
  have hfrom (before : List (Value × α)) (hall : (keys (before ++ es)).Nodup) :
      es.foldl (fun es e => put es e.1 e.2) before = before ++ es := by
    clear hkeys
    induction es generalizing before with
    | nil => simp
    | cons e es ih =>
        obtain ⟨k, v⟩ := e
        obtain ⟨s, hk⟩ := htexts (k, v) (by simp)
        cases hk
        have hnew : .str s ∉ keys before := by
          intro hmem
          simp only [keys, List.map_append, List.map_cons, List.nodup_append] at hall
          exact hall.2.2 _ hmem _ (by simp) rfl
        rw [List.foldl_cons, put_of_not_mem before s v hnew,
          ih (fun e he => htexts e (by simp [he])) _ (by simpa using hall)]
        simp
  exact hfrom [] (by simpa using hkeys)

/-- The second of two writes under one text key is the one that counts. -/
theorem put_put_self (es : List (Value × α)) (name : String) (v w : α) :
    put (put es (.str name) v) (.str name) w = put es (.str name) w := by
  induction es with
  | nil => simp [put, Value.str_equals_self]
  | cons e es ih =>
      obtain ⟨k, u⟩ := e
      by_cases hk : (Value.str name).equals k = true
      · simp [put, hk]
      · simp [put, hk, ih]

end Entries

end FunctionPipeline

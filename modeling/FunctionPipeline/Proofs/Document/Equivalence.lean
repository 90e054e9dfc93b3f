import FunctionPipeline.Proofs.Document.Equality

/-!
Equality of contents is an equivalence on all values that there can be: those whose mappings have
keys, and whose sets have members, that can be looked up and are not equal to each other. Keys are
compared by their classes, so sets are equal exactly if their members fall into the same classes;
mappings are compared key by key, and what stands under a key is smaller than the mapping.
-/

namespace FunctionPipeline

namespace Value

/-- Members of a set that can be one: no two of them are equal. -/
def areDistinct (members : List Value) : Bool :=
  decide (members.Pairwise fun v w => v.equals w = false)

mutual

/-- Whether no set in a value has equal members. -/
def hasDistinctSets : Value → Bool
  | .set members => areDistinct members
  | .sequence _ items => allDistinctSets items
  | .mapping _ entries => entriesDistinctSets entries
  | _ => true

def allDistinctSets : List Value → Bool
  | [] => true
  | x :: xs => hasDistinctSets x && allDistinctSets xs

def entriesDistinctSets : List (Value × Value) → Bool
  | [] => true
  | (_, v) :: es => hasDistinctSets v && entriesDistinctSets es

end

/-- A value that there can be: keys of mappings and members of sets can be looked up, and no two of
them are equal. -/
structure IsPossible (v : Value) : Prop extends IsProper v where
  distinct : v.hasDistinctSets = true

instance (v : Value) : Decidable v.IsPossible :=
  decidable_of_iff
    (v.isWellKeyed = true ∧ v.hasKeySets = true ∧ v.hasDistinctSets = true)
    ⟨fun h => ⟨⟨h.1, h.2.1⟩, h.2.2⟩, fun h => ⟨h.mappings, h.sets, h.distinct⟩⟩

theorem isPossible_cons {x : Value} {xs : List Value} {a : Access}
    (h : (sequence a (x :: xs)).IsPossible) : x.IsPossible ∧ (sequence a xs).IsPossible := by
  obtain ⟨⟨hkeyed, hsets⟩, hdistinct⟩ := h
  rw [isWellKeyed, allWellKeyed, Bool.and_eq_true] at hkeyed
  rw [hasKeySets, allKeySets, Bool.and_eq_true] at hsets
  rw [hasDistinctSets, allDistinctSets, Bool.and_eq_true] at hdistinct
  exact ⟨⟨⟨hkeyed.1, hsets.1⟩, hdistinct.1⟩, ⟨⟨hkeyed.2, hsets.2⟩, hdistinct.2⟩⟩

theorem entriesDistinctSets_iff {es : Entries} :
    entriesDistinctSets es = true ↔ ∀ e ∈ es, e.2.hasDistinctSets = true := by
  induction es with
  | nil => simp [entriesDistinctSets]
  | cons e es ih =>
      obtain ⟨k, v⟩ := e
      rw [entriesDistinctSets, Bool.and_eq_true, ih, List.forall_mem_cons]

theorem IsPossible.entries {a : Access} {es : Entries} (h : (mapping a es).IsPossible) :
    Entries.IsProper es := Entries.isProper_mapping h.toIsProper

theorem IsPossible.under {a : Access} {es : Entries} (h : (mapping a es).IsPossible)
    {key v : Value} (hv : Entries.get? es key = some v) : v.IsPossible :=
  ⟨h.entries.get? hv,
    Entries.of_get? (P := fun w => w.hasDistinctSets = true)
      (entriesDistinctSets_iff.mp h.distinct) hv⟩

theorem IsPossible.areKeys {vs : List Value} (h : (set vs).IsPossible) :
    ∀ v ∈ vs, v.unhashable? = none := by
  intro v hv
  simpa using List.all_eq_true.mp h.sets v hv

def isLeaf : Value → Bool
  | .sequence .. | .set _ | .mapping .. => false
  | _ => true

theorem isKey_of_leaf {v : Value} (h : v.isLeaf = true) : v.unhashable? = none := by
  cases v with
  | sequence | set | mapping => cases h
  | _ => rfl

@[simp] theorem position?_sequence (a : Access) (xs : List Value) :
    (sequence a xs).position? = none := rfl

@[simp] theorem position?_set (vs : List Value) : (set vs).position? = none := rfl

@[simp] theorem position?_mapping (a : Access) (es : Entries) :
    (mapping a es).position? = none := rfl

theorem of_sequence_equals {a : Access} {xs : List Value} {w : Value}
    (h : (sequence a xs).equals w = true) :
    ∃ ys, w = .sequence a ys ∧ equalsAll xs ys = true := by
  cases w with
  | sequence b ys =>
      rw [equals, Bool.and_eq_true, beq_iff_eq] at h
      obtain ⟨rfl, hitems⟩ := h
      exact ⟨ys, rfl, hitems⟩
  | _ => simp [equals, scalarEquals] at h

theorem of_set_equals {vs : List Value} {w : Value} (h : (set vs).equals w = true) :
    ∃ ws, w = .set ws := by
  cases w with
  | set ws => exact ⟨ws, rfl⟩
  | _ => simp [equals, scalarEquals] at h

theorem of_mapping_equals {a : Access} {es : Entries} {w : Value}
    (h : (mapping a es).equals w = true) : ∃ b fs, w = .mapping b fs := by
  cases w with
  | mapping b fs => exact ⟨b, fs, rfl⟩
  | _ => cases isMapping_of_equals h

theorem isLeaf_of_equals {v w : Value} (hv : v.isLeaf = true) (h : v.equals w = true) :
    w.isLeaf = true := by
  cases v with
  | sequence | set | mapping => cases hv
  | _ =>
      cases w with
      | sequence | set | mapping => simp [equals, scalarEquals] at h
      | _ => rfl

/-- A member of a set is found in another one exactly if its class is there. -/
private theorem exists_equal_iff {v : Value} {ws : List Value} (hv : v.unhashable? = none)
    (hws : ∀ w ∈ ws, w.unhashable? = none) :
    (∃ w ∈ ws, v.equals w = true) ↔ v.keyForm ∈ ws.map keyForm := by
  rw [List.mem_map]
  refine exists_congr fun w => and_congr_right fun hw => ?_
  rw [equals_iff_keyForm hv (hws w hw), eq_comm]

/-- Sets are equal exactly if their members fall into the same classes. -/
theorem equals_sets_iff {vs ws : List Value} (hvs : (set vs).IsPossible)
    (hws : (set ws).IsPossible) :
    (set vs).equals (set ws) = true ↔ (vs.map keyForm).Perm (ws.map keyForm) := by
  have hkeys := hvs.areKeys
  have hkeys' := hws.areKeys
  simp only [equals, Bool.and_eq_true, beq_iff_eq, membersIn_iff]
  constructor
  · rintro ⟨hlength, hmembers⟩
    have hdistinct : (vs.map keyForm).Nodup := by
      have hpairwise := of_decide_eq_true hvs.distinct
      rw [List.Nodup, List.pairwise_map]
      refine List.Pairwise.imp_of_mem (fun hv hw hunequal => ?_) hpairwise
      rw [ne_eq, ← equals_iff_keyForm (hkeys _ hv) (hkeys _ hw), hunequal]
      exact Bool.false_ne_true
    refine (hdistinct.subperm fun form hform => ?_).perm_of_length_le (by simp [hlength])
    obtain ⟨v, hv, rfl⟩ := List.mem_map.mp hform
    exact (exists_equal_iff (hkeys v hv) hkeys').mp (hmembers v hv)
  · intro hperm
    refine ⟨by simpa using hperm.length_eq, fun v hv => ?_⟩
    rw [exists_equal_iff (hkeys v hv) hkeys', ← hperm.mem_iff]
    exact List.mem_map_of_mem hv

mutual

/-- Equality can be turned round. -/
theorem equals_symm {v w : Value} (hv : v.IsPossible) (hw : w.IsPossible)
    (h : v.equals w = true) : w.equals v = true := by
  cases v with
  | sequence a xs =>
      obtain ⟨ys, rfl, hitems⟩ := of_sequence_equals h
      rw [equals, Bool.and_eq_true]
      exact ⟨beq_self_eq_true a, equalsAll_symm hv hw hitems⟩
  | set vs =>
      obtain ⟨ws, rfl⟩ := of_set_equals h
      exact (equals_sets_iff hw hv).mpr ((equals_sets_iff hv hw).mp h).symm
  | mapping a es =>
      obtain ⟨b, fs, rfl⟩ := of_mapping_equals h
      have hes := hv.entries.mappings.isKeyed
      have hfs := hw.entries.mappings.isKeyed
      rw [Entries.equals_iff_get? hes hfs] at h
      rw [Entries.equals_iff_get? hfs hes]
      intro key hkey
      have hfound := h key hkey
      cases hleft : Entries.get? es key with
      | none =>
          rw [hleft] at hfound
          cases hright : Entries.get? fs key with
          | none => exact .none
          | some => rw [hright] at hfound; cases hfound
      | some x =>
          rw [hleft] at hfound
          obtain ⟨y, hright, hequal⟩ := exists_of_equalFound hfound
          have hsize := Entries.sizeOf_get? hleft
          rw [hright]
          exact .some (equals_symm (hv.under hleft) (hw.under hright) hequal)
  | _ => rwa [equals_comm (isKey_of_leaf (isLeaf_of_equals rfl h)) rfl]
termination_by sizeOf v
decreasing_by
  all_goals (subst_vars; simp only [sequence.sizeOf_spec, mapping.sizeOf_spec]; omega)

theorem equalsAll_symm {xs ys : List Value} {a b : Access} (hxs : (sequence a xs).IsPossible)
    (hys : (sequence b ys).IsPossible) (h : equalsAll xs ys = true) : equalsAll ys xs = true := by
  match xs, ys with
  | [], [] => rw [equalsAll]
  | [], _ :: _ | _ :: _, [] => simp [equalsAll] at h
  | x :: xs, y :: ys =>
      obtain ⟨hx, hrest⟩ := isPossible_cons hxs
      obtain ⟨hy, hrest'⟩ := isPossible_cons hys
      rw [equalsAll, Bool.and_eq_true] at h ⊢
      exact ⟨equals_symm hx hy h.1, equalsAll_symm hrest hrest' h.2⟩
termination_by sizeOf xs

end

mutual

/-- What equals the same value is equal. -/
theorem equals_trans {u v w : Value} (hu : u.IsPossible) (hv : v.IsPossible) (hw : w.IsPossible)
    (h : u.equals v = true) (h' : v.equals w = true) : u.equals w = true := by
  cases u with
  | sequence a xs =>
      obtain ⟨ys, rfl, hitems⟩ := of_sequence_equals h
      obtain ⟨zs, rfl, hitems'⟩ := of_sequence_equals h'
      rw [equals, Bool.and_eq_true]
      exact ⟨beq_self_eq_true a, equalsAll_trans hu hv hw hitems hitems'⟩
  | set us =>
      obtain ⟨vs, rfl⟩ := of_set_equals h
      obtain ⟨ws, rfl⟩ := of_set_equals h'
      rw [equals_sets_iff hu hv] at h
      exact (equals_sets_iff hu hw).mpr (h.trans ((equals_sets_iff hv hw).mp h'))
  | mapping a es =>
      obtain ⟨b, fs, rfl⟩ := of_mapping_equals h
      obtain ⟨c, gs, rfl⟩ := of_mapping_equals h'
      have hes := hu.entries.mappings.isKeyed
      have hfs := hv.entries.mappings.isKeyed
      have hgs := hw.entries.mappings.isKeyed
      rw [Entries.equals_iff_get? hes hfs] at h
      rw [Entries.equals_iff_get? hfs hgs] at h'
      rw [Entries.equals_iff_get? hes hgs]
      intro key hkey
      have hfound := h key hkey
      have hfound' := h' key hkey
      cases hleft : Entries.get? es key with
      | none =>
          rw [hleft] at hfound
          cases hmiddle : Entries.get? fs key with
          | none => rwa [hmiddle] at hfound'
          | some => rw [hmiddle] at hfound; cases hfound
      | some x =>
          rw [hleft] at hfound
          obtain ⟨y, hmiddle, hequal⟩ := exists_of_equalFound hfound
          rw [hmiddle] at hfound'
          obtain ⟨z, hright, hequal'⟩ := exists_of_equalFound hfound'
          have hsize := Entries.sizeOf_get? hleft
          rw [hright]
          exact .some (equals_trans (hu.under hleft) (hv.under hmiddle) (hw.under hright) hequal
            hequal')
  | _ =>
      have hmiddle := isLeaf_of_equals rfl h
      have hright := isKey_of_leaf (isLeaf_of_equals hmiddle h')
      rwa [equals_congr rfl (isKey_of_leaf hmiddle) hright h]
termination_by sizeOf u
decreasing_by
  all_goals (subst_vars; simp only [sequence.sizeOf_spec, mapping.sizeOf_spec]; omega)

theorem equalsAll_trans {xs ys zs : List Value} {a b c : Access}
    (hxs : (sequence a xs).IsPossible) (hys : (sequence b ys).IsPossible)
    (hzs : (sequence c zs).IsPossible) (h : equalsAll xs ys = true) (h' : equalsAll ys zs = true) :
    equalsAll xs zs = true := by
  match xs, ys, zs with
  | [], [], zs => exact h'
  | [], _ :: _, _ | _ :: _, [], _ => simp [equalsAll] at h
  | _ :: _, _ :: _, [] => simp [equalsAll] at h'
  | x :: xs, y :: ys, z :: zs =>
      obtain ⟨hx, hrest⟩ := isPossible_cons hxs
      obtain ⟨hy, hrest'⟩ := isPossible_cons hys
      obtain ⟨hz, hrest''⟩ := isPossible_cons hzs
      rw [equalsAll, Bool.and_eq_true] at h h' ⊢
      exact ⟨equals_trans hx hy hz h.1 h'.1, equalsAll_trans hrest hrest' hrest'' h.2 h'.2⟩
termination_by sizeOf xs

end

end Value

end FunctionPipeline

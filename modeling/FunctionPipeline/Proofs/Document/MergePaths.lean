import FunctionPipeline.Proofs.Document.RepeatedMerges

/-!
Deep merge place by place. What the result has at a path is settled by what the base and the
override have there and where the override's part of the path ends, and the order of its keys by
theirs at each level: `isMerge_deepMerge`. All of this comes from paths that the override follows to
their end (`along?_mergeOver`), by induction on the path; a path that leaves the override is cut
where it does.
-/

namespace FunctionPipeline

namespace Entries

theorem get?_thaw (es : Entries) (key : Value) :
    get? (thaw es) key = (get? es key).map Value.thaw := by
  induction es with
  | nil => rfl
  | cons e es ih =>
      obtain ⟨k, v⟩ := e
      rw [thaw, Value.withAccessEntries, get?_cons, get?_cons]
      rw [thaw] at ih
      rw [ih]
      split <;> rfl

theorem keys_thaw (es : Entries) : keys (thaw es) = keys es := by
  induction es with
  | nil => rfl
  | cons e es ih => exact congrArg (e.1 :: ·) ih

/-- What stands under a key of entries without references has none. -/
theorem hasReference_get? {es : Entries} (h : Value.entryReference es = false) {key v : Value}
    (hv : get? es key = some v) : v.hasReference = false :=
  of_get? (P := fun w => w.hasReference = false) (Value.entryReference_eq_false_iff.mp h) hv

/-- The keys of an override that lead to nothing in a base, in order. -/
def newKeys (base override : Entries) : List Value :=
  (keys override).filter fun k => (get? base k).isNone

/-- A merge keeps the keys that are there, in order, and puts the new ones after them. -/
theorem keys_mergeInto_eq {base es : Entries} (hbase : IsWellKeyed base) (hes : IsWellKeyed es) :
    keys (mergeInto base es) = keys base ++ newKeys base es := by
  induction es generalizing base with
  | nil => simp [mergeInto, newKeys, keys]
  | cons e es ih =>
      obtain ⟨k, v⟩ := e
      obtain ⟨⟨hk, hnew⟩, hv, hrest⟩ := isWellKeyed_cons.mp hes
      have hmerged : (v.mergeOver (get? base k)).isWellKeyed = true :=
        isWellKeyed_kept.mergeOver _ (fun _ hw => hbase.get? hw) v hv
      -- no later key of the override is the one just written
      have hlater : newKeys (put base k (v.mergeOver (get? base k))) es = newKeys base es := by
        refine List.filter_congr fun l hl => ?_
        obtain ⟨e, he, rfl⟩ := List.mem_map.mp hl
        have hkey := hrest.areKeys e he
        have hunequal : e.1.equals k = false := by
          rw [Value.equals_comm hkey hk, hnew e he]
        rw [get?_put hbase.areKeys hk _ hkey, hunequal]
        rfl
      rw [mergeInto, ih (hbase.put hk hmerged) hrest, hlater]
      cases hget : get? base k with
      | some w =>
          rw [keys_put_of_isSome _ (by rw [hget]; rfl)]
          simp [newKeys, keys, hget]
      | none =>
          rw [put_of_isNone _ hget]
          simp [newKeys, keys, hget]

end Entries

namespace Value

mutual

/-- Whether every container in a value is writable. Keys and the members of sets stay what they
are. -/
def isWritable : Value → Bool
  | .sequence access items => access = .writable && allWritable items
  | .mapping access entries => access = .writable && entriesWritable entries
  | _ => true

def allWritable : List Value → Bool
  | [] => true
  | x :: xs => isWritable x && allWritable xs

def entriesWritable : List (Value × Value) → Bool
  | [] => true
  | (_, v) :: es => isWritable v && entriesWritable es

end

mutual

theorem isWritable_thaw : ∀ v : Value, v.thaw.isWritable = true
  | .sequence _ items => by simp [thaw, withAccess, isWritable, allWritable_thaw items]
  | .mapping _ entries => by simp [thaw, withAccess, isWritable, entriesWritable_thaw entries]
  | .null | .bool _ | .int _ | .float _ | .str _ | .bytes _ | .date _ | .moment _ | .foreign _
  | .set _ | .enclosing _ => rfl

theorem allWritable_thaw :
    ∀ items : List Value, allWritable (withAccessAll .writable items) = true
  | [] => rfl
  | x :: xs => by
      simp only [withAccessAll, allWritable, Bool.and_eq_true]
      exact ⟨isWritable_thaw x, allWritable_thaw xs⟩

theorem entriesWritable_thaw :
    ∀ es : List (Value × Value), entriesWritable (withAccessEntries .writable es) = true
  | [] => rfl
  | (_, v) :: es => by
      simp only [withAccessEntries, entriesWritable, Bool.and_eq_true]
      exact ⟨isWritable_thaw v, entriesWritable_thaw es⟩

end

/-! Paths of keys into parts and copies. -/

theorem along?_append (v : Value) (path rest : List Value) :
    v.along? (path ++ rest) = (v.along? path).bind fun w => w.along? rest := by
  induction path generalizing v with
  | nil => rfl
  | cons key path ih =>
      simp only [List.cons_append, along?]
      cases v.entries? with
      | none => rfl
      | some es =>
          simp only
          cases Entries.get? es key with
          | none => rfl
          | some w => exact ih w

theorem along?_of_not_mapping {v : Value} (h : v.isMapping = false) (key : Value)
    (rest : List Value) : v.along? (key :: rest) = none := by
  cases v with
  | mapping => cases h
  | _ => rfl

/-- A value that can be merged: it is finite, and every mapping in it can be one. -/
structure IsMergeable (v : Value) : Prop where
  finite : v.hasReference = false
  keyed : v.isWellKeyed = true

theorem IsMergeable.under {access : Access} {es : Entries} (h : (mapping access es).IsMergeable)
    {key v : Value} (hv : Entries.get? es key = some v) : v.IsMergeable :=
  ⟨Entries.hasReference_get? h.finite hv, Entries.IsWellKeyed.get? h.keyed hv⟩

theorem IsMergeable.along? {v w : Value} (h : v.IsMergeable) {path : List Value}
    (hw : v.along? path = some w) : w.IsMergeable := by
  induction path generalizing v with
  | nil => exact Option.some.inj hw ▸ h
  | cons key rest ih =>
      cases v with
      | mapping access es =>
          rw [along?_cons h.finite] at hw
          obtain ⟨below, hbelow, hrest⟩ := Option.bind_eq_some_iff.mp hw
          exact ih (h.under hbelow) hrest
      | _ => cases hw

/-- A path leads in a writable copy to the copy of what it leads to. -/
theorem along?_thaw {v : Value} (h : v.hasReference = false) (path : List Value) :
    v.thaw.along? path = (v.along? path).map thaw := by
  induction path generalizing v with
  | nil => rfl
  | cons key rest ih =>
      cases v with
      | mapping access es =>
          have hcopy : entryReference (Entries.thaw es) = false :=
            (entryReference_withAccessEntries .writable es).trans h
          rw [along?_cons h, show (mapping access es).thaw = .object (Entries.thaw es) from rfl,
            along?_cons hcopy, Entries.get?_thaw]
          cases hget : Entries.get? es key with
          | none => rfl
          | some w => exact ih (Entries.hasReference_get? h hget)
      | _ => rfl

/-- Over what is no mapping an override is copied. -/
theorem mergeOver_eq_thaw {current : Option Value}
    (h : ∀ v, current = some v → v.isMapping = false) (w : Value) :
    w.mergeOver current = w.thaw := by
  cases w with
  | mapping access es =>
      cases current with
      | none => rfl
      | some v =>
          cases v with
          | mapping => cases h _ rfl
          | _ => rfl
  | _ => rfl

theorem mergeOver_of_not_mapping_eq_thaw {w : Value} (h : w.isMapping = false)
    (current : Option Value) : w.mergeOver current = w.thaw := by
  rw [mergeOver_of_not_mapping h current none]
  exact mergeOver_eq_thaw (fun _ hv => by cases hv) w

/-- It does not matter whether what is written over was writable. -/
theorem mergeOver_map_thaw (current : Option Value) (w : Value) :
    w.mergeOver (current.map thaw) = w.mergeOver current := by
  cases w with
  | mapping access es =>
      cases current with
      | none => rfl
      | some v =>
          cases v with
          | mapping a below =>
              have hcopy : Entries.thaw (Entries.thaw below) = Entries.thaw below :=
                withAccessEntries_withAccessEntries _ _ below
              simp only [Option.map_some, thaw, withAccess, mergeOver]
              rw [show withAccessEntries .writable below = Entries.thaw below from rfl, hcopy]
          | _ => rfl
  | _ => rfl

/-- What stands under a key after a mapping was written over a mapping. -/
theorem along?_mergeOver_cons {a b : Access} {es fs : Entries}
    (hes : (mapping a es).IsMergeable) (hfs : (mapping b fs).IsMergeable) {key : Value}
    (hkey : key.unhashable? = none) (rest : List Value) :
    ((mapping b fs).mergeOver (some (mapping a es))).along? (key :: rest) =
      match Entries.get? fs key with
      | some w => (w.mergeOver (Entries.get? es key)).along? rest
      | none => ((mapping a es).along? (key :: rest)).map thaw := by
  have hkeyed : Entries.IsWellKeyed (Entries.thaw es) :=
    (entriesWellKeyed_withAccessEntries .writable es).trans hes.keyed
  have hmerged : entryReference (Entries.mergeInto (Entries.thaw es) fs) = false :=
    (Entries.isTree_kept.mergeInto _ (Entries.isTree_thaw hes.finite) fs hfs.finite).1
  rw [mergeOver, along?_cons hmerged, Entries.get?_mergeInto hkeyed hfs.keyed hkey,
    Entries.get?_thaw]
  cases Entries.get? fs key with
  | some w => simp only [Option.map_some, Option.some_or, Option.bind_some, mergeOver_map_thaw]
  | none =>
      rw [along?_cons hes.finite]
      cases hget : Entries.get? es key with
      | none => rfl
      | some v => exact along?_thaw (hes.under hget).finite rest

/-- Where the override has a value, it is written over what was there before. -/
theorem along?_mergeOver {override w : Value} {current : Option Value} {path : List Value}
    (hpath : ∀ k ∈ path, k.unhashable? = none) (hcurrent : ∀ v, current = some v → v.IsMergeable)
    (hoverride : override.IsMergeable) (h : override.along? path = some w) :
    (override.mergeOver current).along? path =
      some (w.mergeOver (current.bind fun v => v.along? path)) := by
  induction path generalizing override current with
  | nil =>
      obtain rfl := Option.some.inj h
      cases current <;> rfl
  | cons key rest ih =>
      obtain ⟨hkey, hrest⟩ := List.forall_mem_cons.mp hpath
      cases override with
      | mapping b fs =>
          by_cases hmapping : ∃ a es, current = some (mapping a es)
          · obtain ⟨a, es, rfl⟩ := hmapping
            have hes := hcurrent _ rfl
            rw [along?_cons hoverride.finite] at h
            obtain ⟨below, hbelow, hw⟩ := Option.bind_eq_some_iff.mp h
            rw [along?_mergeOver_cons hes hoverride hkey, hbelow, Option.bind_some,
              along?_cons hes.finite]
            exact ih hrest (fun v hv => hes.under hv) (hoverride.under hbelow) hw
          · have hplain : ∀ v, current = some v → v.isMapping = false := by
              rintro v rfl
              cases v with
              | mapping a es => exact absurd ⟨a, es, rfl⟩ hmapping
              | _ => rfl
            have hnone : (current.bind fun v => v.along? (key :: rest)) = none := by
              cases current with
              | none => rfl
              | some v => exact along?_of_not_mapping (hplain v rfl) key rest
            rw [mergeOver_eq_thaw hplain, along?_thaw hoverride.finite, h, hnone,
              mergeOver_eq_thaw (fun _ hv => by cases hv)]
            rfl
      | _ => cases h

/-- The longest start of a path that leads somewhere in a value. -/
structure IsReach (v : Value) (path reach : List Value) : Prop where
  start : reach <+: path
  leads : (v.along? reach).isSome = true
  longest : ∀ other, other <+: path → (v.along? other).isSome = true → other.length ≤ reach.length

/-- A path that leads nowhere is cut where it leaves the value. -/
theorem exists_reach {v : Value} {path : List Value} (h : v.along? path = none) :
    ∃ reach key rest w, path = reach ++ key :: rest ∧ v.along? reach = some w ∧
      w.along? [key] = none ∧ IsReach v path reach := by
  have hcut : ∃ reach key rest w, path = reach ++ key :: rest ∧ v.along? reach = some w ∧
      w.along? [key] = none := by
    induction path generalizing v with
    | nil => cases h
    | cons key rest ih =>
        cases hkey : v.along? [key] with
        | none => exact ⟨[], key, rest, v, rfl, rfl, hkey⟩
        | some below =>
            have hrest : below.along? rest = none := by
              rwa [← List.singleton_append, along?_append, hkey, Option.bind_some] at h
            obtain ⟨reach, other, others, w, rfl, hw, hnone⟩ := ih hrest
            refine ⟨key :: reach, other, others, w, rfl, ?_, hnone⟩
            rw [← List.singleton_append, along?_append, hkey, Option.bind_some, hw]
  obtain ⟨reach, key, rest, w, rfl, hw, hnone⟩ := hcut
  refine ⟨reach, key, rest, w, rfl, hw, hnone, ⟨key :: rest, rfl⟩, by rw [hw]; rfl, ?_⟩
  intro other hother hleads
  refine Nat.le_of_not_lt fun hlonger => ?_
  have hnext : reach ++ [key] <+: other := by
    refine List.prefix_of_prefix_length_le ⟨rest, by simp⟩ hother ?_
    rw [List.length_append, List.length_singleton]
    omega
  obtain ⟨others, rfl⟩ := hnext
  rw [along?_append, along?_append, hw, Option.bind_some, hnone] at hleads
  cases hleads

def BothMappings (v w : Value) (path : List Value) : Prop :=
  ∃ a es b fs, v.along? path = some (mapping a es) ∧ w.along? path = some (mapping b fs)

/-- What a deep merge makes of a base and an override. Keys may be of any kind that can be one. -/
structure IsMerge (base override merged : Value) : Prop where
  /-- Mappings that both have at a path are merged there. -/
  both {path : List Value} {v w : Value} (hpath : ∀ k ∈ path, k.unhashable? = none)
      (hbase : base.along? path = some v) (hoverride : override.along? path = some w)
      (hv : v.isMapping = true) (hw : w.isMapping = true) :
    ∃ below, Value.deepMerge v w = .ok below ∧ merged.along? path = some below
  /-- Any other value of the override is copied to its place. -/
  written {path : List Value} {w : Value} (hpath : ∀ k ∈ path, k.unhashable? = none)
      (hoverride : override.along? path = some w) (hplain : ¬ BothMappings base override path) :
    merged.along? path = some w.thaw
  /-- Where the override has no value the base's is copied, unless something was written over a part
  of the path. -/
  elsewhere {path : List Value} (hpath : ∀ k ∈ path, k.unhashable? = none)
      (hoverride : override.along? path = none) :
    ∃ reach, IsReach override path reach ∧
      (BothMappings base override reach → merged.along? path = (base.along? path).map thaw) ∧
      (¬ BothMappings base override reach → merged.along? path = none)
  /-- The keys of the base come first and the new ones after them. -/
  keys {path : List Value} {a b : Access} {es fs : Entries}
      (hpath : ∀ k ∈ path, k.unhashable? = none) (hbase : base.along? path = some (mapping a es))
      (hoverride : override.along? path = some (mapping b fs)) :
    ∃ below, merged.along? path = some (.object below) ∧
      Entries.keys below = Entries.keys es ++ Entries.newKeys es fs
  writable : merged.isWritable = true
  frozen : Value.deepMerge base.freeze override.freeze = .ok merged
  again : Value.deepMerge merged override = .ok merged

/-- Mergeable mappings have a deep merge. -/
theorem deepMerge_of_mergeable {a b : Access} {es fs : Entries}
    (hes : (mapping a es).IsMergeable) (hfs : (mapping b fs).IsMergeable) :
    Value.deepMerge (mapping a es) (mapping b fs) =
      .ok ((mapping b fs).mergeOver (some (mapping a es))) := by
  have hbase : (mapping a es).hasReference ≠ true := by rw [hes.finite]; exact Bool.false_ne_true
  have hoverride : (mapping b fs).hasReference ≠ true := by
    rw [hfs.finite]
    exact Bool.false_ne_true
  unfold Value.deepMerge
  cases fs with
  | nil => exact if_neg hbase
  | cons f fs => exact (if_neg hbase).trans (if_neg hoverride)

/-- A deep merge of mergeable mappings is mergeable. -/
theorem isMergeable_deepMerge {a b : Access} {es fs : Entries} (hes : (mapping a es).IsMergeable)
    (hfs : (mapping b fs).IsMergeable) : (object (Entries.deepMerge es fs)).IsMergeable := by
  have hkeyed : Entries.IsWellKeyed (Entries.thaw es) :=
    (entriesWellKeyed_withAccessEntries .writable es).trans hes.keyed
  constructor
  · exact (Entries.isTree_kept.mergeInto _ (Entries.isTree_thaw hes.finite) fs hfs.finite).1
  · exact Entries.isWellKeyed_kept.mergeInto _ hkeyed fs hfs.keyed

/-- Where the two have no mappings to merge, the override is copied. -/
theorem mergeOver_of_not_both {base override w : Value} {path : List Value}
    (hoverride : override.along? path = some w) (h : ¬ BothMappings base override path) :
    w.mergeOver (base.along? path) = w.thaw := by
  cases w with
  | mapping b fs =>
      refine mergeOver_eq_thaw (fun v hv => ?_) _
      cases v with
      | mapping a es => exact absurd ⟨a, es, b, fs, hv, hoverride⟩ h
      | _ => rfl
  | _ => exact mergeOver_of_not_mapping_eq_thaw rfl _

section Laws

variable {a b : Access} {es fs : Entries} {path : List Value}

/-- At a path that the override follows to its end stands its value, written over the base's. -/
theorem along?_merged (hes : (mapping a es).IsMergeable) (hfs : (mapping b fs).IsMergeable)
    (hpath : ∀ k ∈ path, k.unhashable? = none) {w : Value}
    (hw : (mapping b fs).along? path = some w) :
    ((mapping b fs).mergeOver (some (mapping a es))).along? path =
      some (w.mergeOver ((mapping a es).along? path)) :=
  along?_mergeOver hpath (fun _ hv => Option.some.inj hv ▸ hes) hfs hw

/-- On a path that leaves the override stands what the base has there, if what it leaves is a
mapping over one of the base. -/
theorem along?_merged_of_leaves (hes : (mapping a es).IsMergeable)
    (hfs : (mapping b fs).IsMergeable) {reach : List Value} {key : Value} {rest : List Value}
    (hpath : ∀ k ∈ reach ++ key :: rest, k.unhashable? = none) {w : Value}
    (hw : (mapping b fs).along? reach = some w) (hleaves : w.along? [key] = none) :
    (BothMappings (mapping a es) (mapping b fs) reach →
      ((mapping b fs).mergeOver (some (mapping a es))).along? (reach ++ key :: rest) =
        ((mapping a es).along? (reach ++ key :: rest)).map thaw) ∧
    (¬ BothMappings (mapping a es) (mapping b fs) reach →
      ((mapping b fs).mergeOver (some (mapping a es))).along? (reach ++ key :: rest) = none) := by
  obtain ⟨hreach, hrest⟩ := List.forall_mem_append.mp hpath
  have hkey : key.unhashable? = none := hrest key (List.mem_cons_self ..)
  rw [along?_append, along?_append, along?_merged hes hfs hreach hw, Option.bind_some]
  constructor
  · rintro ⟨c, below, d, above, hbelow, hover⟩
    obtain rfl := Option.some.inj (hw.symm.trans hover)
    have hmergeable := hfs.along? hw
    have hnone : Entries.get? above key = none := by
      rw [along?_cons hmergeable.finite, Option.bind_eq_none_iff] at hleaves
      exact Option.eq_none_iff_forall_ne_some.mpr fun v hv => by cases hleaves v hv
    rw [hbelow, along?_mergeOver_cons (hes.along? hbelow) hmergeable hkey, hnone, Option.bind_some]
  · intro hplain
    have hnone : w.along? (key :: rest) = none := by
      rw [← List.singleton_append, along?_append, hleaves, Option.bind_none]
    rw [mergeOver_of_not_both hw hplain, along?_thaw (hfs.along? hw).finite, hnone, Option.map_none]

theorem newKeys_thaw (es fs : Entries) :
    Entries.newKeys (Entries.thaw es) fs = Entries.newKeys es fs :=
  List.filter_congr fun k _ => by rw [Entries.get?_thaw, Option.isNone_map]

theorem mergeOver_freeze (v w : Value) :
    w.freeze.mergeOver (some v.freeze) = w.mergeOver (some v) := by
  have hcopy (u : Value) : u.freeze.thaw = u.thaw := withAccess_withAccess .writable .readOnly u
  calc w.freeze.mergeOver (some v.freeze)
      = w.freeze.thaw.mergeOver ((some v.freeze).map thaw) := by
        rw [mergeOver_thaw, mergeOver_map_thaw]
    _ = w.thaw.mergeOver ((some v).map thaw) := by
        rw [hcopy, Option.map_some, hcopy, Option.map_some]
    _ = w.mergeOver (some v) := by rw [mergeOver_thaw, mergeOver_map_thaw]

theorem IsMergeable.freeze {v : Value} (h : v.IsMergeable) : v.freeze.IsMergeable :=
  ⟨(hasReference_withAccess _ _).trans h.finite, (isWellKeyed_withAccess _ _).trans h.keyed⟩

/-- Merging the same override again changes nothing. -/
theorem deepMerge_merged (hes : (mapping a es).IsMergeable) (hfs : (mapping b fs).IsMergeable) :
    Value.deepMerge ((mapping b fs).mergeOver (some (mapping a es))) (mapping b fs) =
      .ok ((mapping b fs).mergeOver (some (mapping a es))) := by
  have hcopy : Entries.IsTree (Entries.thaw es) := Entries.isTree_thaw hes.finite
  have hkeyed : Entries.IsWellKeyed (Entries.thaw es) :=
    (entriesWellKeyed_withAccessEntries .writable es).trans hes.keyed
  have hmerged : (mapping .writable (Entries.mergeInto (Entries.thaw es) fs)).IsMergeable :=
    isMergeable_deepMerge hes hfs
  have hagain : Entries.mergeAll (Entries.mergeAll (Entries.thaw es) [fs]) [fs] =
      Entries.mergeAll (Entries.thaw es) [fs] :=
    Entries.mergeAll_mergeAll hkeyed hcopy.2 fun _ hmem => List.mem_singleton.mp hmem ▸ hfs.keyed
  simp only [Entries.mergeAll, List.foldl_cons, List.foldl_nil] at hagain
  rw [mergeOver, deepMerge_of_mergeable hmerged hfs, mergeOver,
    Entries.thaw_mergeInto _ hcopy.2 fs, hagain]

/-- A deep merge of mergeable mappings is their merge place by place. -/
theorem isMerge_mergeOver (hes : (mapping a es).IsMergeable) (hfs : (mapping b fs).IsMergeable) :
    IsMerge (mapping a es) (mapping b fs) ((mapping b fs).mergeOver (some (mapping a es))) where
  both {path v w} hpath hbase hoverride hv hw := by
    have hmerged := along?_merged hes hfs hpath hoverride
    rw [hbase] at hmerged
    have hbelow := hes.along? hbase
    have hover := hfs.along? hoverride
    cases v with
    | mapping c below =>
        cases w with
        | mapping d above => exact ⟨_, deepMerge_of_mergeable hbelow hover, hmerged⟩
        | _ => cases hw
    | _ => cases hv
  written hpath hoverride hplain := by
    rw [along?_merged hes hfs hpath hoverride, mergeOver_of_not_both hoverride hplain]
  elsewhere hpath hoverride := by
    obtain ⟨reach, key, rest, w, rfl, hw, hleaves, hreach⟩ := exists_reach hoverride
    exact ⟨reach, hreach, along?_merged_of_leaves hes hfs hpath hw hleaves⟩
  keys {path c d below above} hpath hbase hoverride := by
    have hmerged := along?_merged hes hfs hpath hoverride
    rw [hbase, mergeOver] at hmerged
    have hkeyed : Entries.IsWellKeyed (Entries.thaw below) :=
      (entriesWellKeyed_withAccessEntries .writable below).trans (hes.along? hbase).keyed
    refine ⟨_, hmerged, ?_⟩
    rw [Entries.keys_mergeInto_eq hkeyed (hfs.along? hoverride).keyed, Entries.keys_thaw,
      newKeys_thaw]
  writable := by
    rw [← thaw_mergeOver]
    exact isWritable_thaw _
  frozen := by
    rw [← mergeOver_freeze]
    exact deepMerge_of_mergeable hes.freeze hfs.freeze
  again := deepMerge_merged hes hfs

end Laws

/-- The deep merge of an override over a base, both of them mappings: its part at every path, the
order of its keys, that it is writable and the same for frozen copies, and that merging the override
again changes nothing. Only what holds itself has none. -/
theorem isMerge_deepMerge {base override : Value} (hbase : base.isMapping = true)
    (hoverride : override.isMapping = true) (hkeyed : base.isWellKeyed = true)
    (hkeyed' : override.isWellKeyed = true) :
    (∃ merged, Value.deepMerge base override = .ok merged ∧ IsMerge base override merged) ∨
    ((base.hasReference || override.hasReference) = true ∧
      Value.deepMerge base override = .error .endless) := by
  cases base with
  | mapping a es =>
      cases override with
      | mapping b fs =>
          cases hreference : (mapping a es).hasReference with
          | true => exact .inr ⟨rfl, by unfold Value.deepMerge; exact if_pos hreference⟩
          | false =>
              cases hreference' : (mapping b fs).hasReference with
              | false =>
                  exact .inl ⟨_, deepMerge_of_mergeable ⟨hreference, hkeyed⟩ ⟨hreference', hkeyed'⟩,
                    isMerge_mergeOver ⟨hreference, hkeyed⟩ ⟨hreference', hkeyed'⟩⟩
              | true =>
                  refine .inr ⟨rfl, ?_⟩
                  unfold Value.deepMerge
                  rw [hreference, if_neg Bool.false_ne_true]
                  cases fs with
                  | nil => cases hreference'
                  | cons f fs => exact if_pos hreference'
      | _ => cases hoverride
  | _ => cases hbase

/-- A base and an override of both accesses: below one key both have mappings, below the other the
base has a text and the override a mapping. -/
theorem isMerge_deepMerge_mixed :
    let base : Value := .object
      [(.str "spec", .mapping .readOnly
          [(.str "size", .int 1), (.str "tags", .sequence .readOnly [.str "a"])]),
        (.str "status", .str "new")]
    let override : Value := .mapping .readOnly
      [(.str "spec", .object [(.str "zone", .null), (.str "tags", .sequence .readOnly [])]),
        (.str "status", .object [(.str "ready", .bool true)])]
    (base.isMapping && override.isMapping && base.isWellKeyed && override.isWellKeyed) = true ∧
      ∃ merged, Value.deepMerge base override = .ok merged ∧ IsMerge base override merged :=
  ⟨by decide +kernel,
    (isMerge_deepMerge rfl rfl (by decide +kernel) (by decide +kernel)).resolve_right
      fun hendless => absurd hendless.1 (by decide +kernel)⟩

end Value

end FunctionPipeline

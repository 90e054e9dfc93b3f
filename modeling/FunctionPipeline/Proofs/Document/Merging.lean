import FunctionPipeline.Proofs.Document.Trees

/-!
Deep merge over writable trees. Merging takes an override and its writable copy alike. A property
that copying and writing an entry keep is kept by a whole merge (`KeptByMerging`), so the result of
merging trees is a tree again. Both follow the recursion of the merge over the override.
-/

namespace FunctionPipeline

mutual

/-- An override has the same effect as its writable copy. -/
theorem Value.mergeOver_thaw (current : Option Value) :
    ∀ v : Value, v.thaw.mergeOver current = v.mergeOver current
  | .mapping access entries => by
      cases current with
      | none =>
          simp only [Value.thaw, Value.withAccess, Value.mergeOver,
            Value.withAccessEntries_withAccessEntries]
      | some below =>
          cases below with
          | mapping a es =>
              simp only [Value.thaw, Value.withAccess, Value.mergeOver,
                Entries.mergeInto_thaw (Entries.thaw es) entries]
          | _ =>
              simp only [Value.thaw, Value.withAccess, Value.mergeOver,
                Value.withAccessEntries_withAccessEntries]
  | .sequence access items => by
      simp only [Value.thaw, Value.withAccess, Value.mergeOver,
        Value.withAccessAll_withAccessAll]
  | .null | .bool _ | .int _ | .float _ | .str _ | .bytes _ | .date _ | .moment _ | .foreign _
  | .set _ | .enclosing _ => rfl

theorem Entries.mergeInto_thaw (base : Entries) :
    ∀ es : List (Value × Value),
      Entries.mergeInto base (Value.withAccessEntries .writable es) = Entries.mergeInto base es
  | [] => rfl
  | (k, v) :: es => by
      simp only [Value.withAccessEntries, Entries.mergeInto]
      rw [show Value.withAccess .writable v = v.thaw from rfl,
        Value.mergeOver_thaw (Entries.get? base k) v]
      exact Entries.mergeInto_thaw _ es

end

namespace Entries

theorem deepMerge_thaw (base override : Entries) :
    deepMerge base (thaw override) = deepMerge base override :=
  mergeInto_thaw (thaw base) override

end Entries

/-- A property that merges keep, with what it asks of the overrides: `Given` and `GivenAll` are
about an override and its entries, `Holds` and `HoldsAll` about what it is written over. -/
structure KeptByMerging (Given Holds : Value → Prop) (GivenAll HoldsAll : Entries → Prop) :
    Prop where
  /-- What is copied has the property. -/
  copy : ∀ v, Given v → Holds v.thaw
  /-- The copied entries of a mapping with the property have it too. -/
  entries : ∀ access es, Holds (.mapping access es) → HoldsAll (Entries.thaw es)
  /-- A mapping whose entries have the property has it. -/
  object : ∀ es, HoldsAll es → Holds (.object es)
  /-- What stands under a key has the property. -/
  get? : ∀ es key v, HoldsAll es → Entries.get? es key = some v → Holds v
  /-- The entries of an override are as they have to be. -/
  under : ∀ access es, Given (.mapping access es) → GivenAll es
  head : ∀ k v es, GivenAll ((k, v) :: es) → Given v
  tail : ∀ k v es, GivenAll ((k, v) :: es) → GivenAll es
  /-- A value with the property may be put under a key of an override. -/
  put : ∀ base k v es w, HoldsAll base → GivenAll ((k, v) :: es) → Holds w →
    HoldsAll (Entries.put base k w)

namespace KeptByMerging

variable {Given Holds : Value → Prop} {GivenAll HoldsAll : Entries → Prop}
  (h : KeptByMerging Given Holds GivenAll HoldsAll)
include h

mutual

/-- What stands under a key after a merge has the property if what stood there had it. -/
theorem mergeOver (current : Option Value) (hcurrent : ∀ v, current = some v → Holds v) :
    ∀ v : Value, Given v → Holds (v.mergeOver current)
  | .mapping access entries => by
      intro hv
      cases current with
      | none => exact h.copy _ hv
      | some below =>
          cases below with
          | mapping a es =>
              have hes : HoldsAll (Entries.thaw es) := h.entries a es (hcurrent _ rfl)
              exact h.object _ (mergeInto _ hes entries (h.under access entries hv))
          | _ => exact h.copy _ hv
  | .sequence access items => fun hv => h.copy (.sequence access items) hv
  | .null | .bool _ | .int _ | .float _ | .str _ | .bytes _ | .date _ | .moment _ | .foreign _
  | .set _ | .enclosing _ => fun hv => h.copy _ hv

/-- The entries merged so far have the property after each entry of the override. -/
theorem mergeInto (base : Entries) (hbase : HoldsAll base) :
    ∀ es : List (Value × Value), GivenAll es → HoldsAll (Entries.mergeInto base es)
  | [] => fun _ => hbase
  | (k, v) :: es => by
      intro hes
      have hmerged : Holds (v.mergeOver (Entries.get? base k)) :=
        mergeOver _ (fun w hw => h.get? base k w hbase hw) v (h.head k v es hes)
      exact mergeInto _ (h.put base k v es _ hbase hes hmerged) es (h.tail k v es hes)

end

end KeptByMerging

/-- Merging overrides without references over trees gives trees. -/
theorem Entries.isTree_kept : KeptByMerging (fun v => v.hasReference = false) Value.IsTree
    (fun es => Value.entryReference es = false) Entries.IsTree where
  copy _ hv := Value.isTree_thaw hv
  entries _ _ hv := Entries.isTree_thaw (Entries.isTree_mapping hv).2.1
  object _ hes := Entries.isTree_object.mpr hes
  get? _ _ _ hes hv := hes.get? hv
  under _ _ hv := hv
  head _ _ _ hes := (Bool.or_eq_false_iff.mp hes).1
  tail _ _ _ hes := (Bool.or_eq_false_iff.mp hes).2
  put _ k _ _ _ hbase _ hw := hbase.put k hw

/-- The deep merge of an override without references over a tree is a tree. -/
theorem Entries.IsTree.deepMerge {base override : Entries} (hbase : Entries.IsTree base)
    (h : Value.entryReference override = false) : Entries.IsTree (base.deepMerge override) := by
  rw [Entries.deepMerge, hbase.2]
  exact Entries.isTree_kept.mergeInto base hbase override h

end FunctionPipeline

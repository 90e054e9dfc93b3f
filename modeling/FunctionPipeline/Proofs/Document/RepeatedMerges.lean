import FunctionPipeline.Proofs.Document.Keys
import FunctionPipeline.Proofs.Document.Merging

/-!
Several deep merges one after the other. They are no single merge, since a scalar in the middle
discards what was there, but what they leave under a key depends only on what was there before and
on what the overrides have under that key. So merging the same overrides again changes nothing:
`mergeAll_mergeAll`, by induction on the size of the overrides, of values and of order.
-/

namespace FunctionPipeline

namespace Value

mutual

/-- Whether every mapping in a value can be one: its keys can be looked up and no two are equal. -/
def isWellKeyed : Value → Bool
  | .sequence _ items => allWellKeyed items
  | .mapping _ entries => entriesWellKeyed entries
  | _ => true

def allWellKeyed : List Value → Bool
  | [] => true
  | x :: xs => isWellKeyed x && allWellKeyed xs

def entriesWellKeyed : List (Value × Value) → Bool
  | [] => true
  | (k, v) :: es =>
      k.unhashable?.isNone && es.all (fun e => !k.equals e.1) && isWellKeyed v &&
        entriesWellKeyed es

end

theorem allWellKeyed_iff {items : List Value} :
    allWellKeyed items = true ↔ ∀ x ∈ items, x.isWellKeyed = true := by
  induction items with
  | nil => simp [allWellKeyed]
  | cons x xs ih => simp [allWellKeyed, ih]

end Value

namespace Entries

def IsWellKeyed (es : Entries) : Prop := Value.entriesWellKeyed es = true

theorem isWellKeyed_cons {k v : Value} {es : Entries} :
    IsWellKeyed ((k, v) :: es) ↔
      (k.unhashable? = none ∧ ∀ e ∈ es, k.equals e.1 = false) ∧ v.isWellKeyed = true ∧
        IsWellKeyed es := by
  simp [IsWellKeyed, Value.entriesWellKeyed, and_assoc]

theorem isWellKeyed_iff {es : Entries} :
    IsWellKeyed es ↔ AreKeys es ∧ Distinct es ∧ ∀ e ∈ es, e.2.isWellKeyed = true := by
  induction es with
  | nil => simp [IsWellKeyed, Value.entriesWellKeyed, AreKeys, Distinct, keys]
  | cons e es ih =>
      obtain ⟨k, v⟩ := e
      rw [isWellKeyed_cons, ih]
      simp only [AreKeys, Distinct, keys, List.map_cons, List.pairwise_cons, List.forall_mem_cons,
        List.forall_mem_map]
      constructor
      · rintro ⟨⟨hk, hnew⟩, hv, hkeys, hdistinct, hvalues⟩
        exact ⟨⟨hk, hkeys⟩, ⟨hnew, hdistinct⟩, hv, hvalues⟩
      · rintro ⟨⟨hk, hkeys⟩, ⟨hnew, hdistinct⟩, hv, hvalues⟩
        exact ⟨⟨hk, hnew⟩, hv, hkeys, hdistinct, hvalues⟩

theorem IsWellKeyed.areKeys {es : Entries} (h : IsWellKeyed es) : AreKeys es :=
  (isWellKeyed_iff.mp h).1

theorem IsWellKeyed.distinct {es : Entries} (h : IsWellKeyed es) : Distinct es :=
  (isWellKeyed_iff.mp h).2.1

theorem IsWellKeyed.get? {es : Entries} (h : IsWellKeyed es) {key v : Value}
    (hv : get? es key = some v) : v.isWellKeyed = true :=
  of_get? (P := fun w => w.isWellKeyed = true) (isWellKeyed_iff.mp h).2.2 hv

theorem IsWellKeyed.put {es : Entries} (h : IsWellKeyed es) {k v : Value}
    (hk : k.unhashable? = none) (hv : v.isWellKeyed = true) : IsWellKeyed (put es k v) := by
  obtain ⟨hkeys, hdistinct, hvalues⟩ := isWellKeyed_iff.mp h
  exact isWellKeyed_iff.mpr ⟨hkeys.put hk v, hdistinct.put hkeys hk v,
    forall_mem_put (P := fun e => Value.isWellKeyed e.2 = true) hvalues hv fun _ _ _ => hv⟩

theorem thaw_put {es : Entries} (h : thaw es = es) (k : Value) {v : Value} (hv : v.thaw = v) :
    thaw (put es k v) = put es k v := by
  induction es with
  | nil => simpa [Entries.put, thaw, Value.withAccessEntries, Value.thaw] using hv
  | cons e es ih =>
      obtain ⟨l, w⟩ := e
      simp only [thaw, Value.withAccessEntries, List.cons.injEq, Prod.mk.injEq, true_and] at h
      simp only [Entries.put]
      split
      · simpa [thaw, Value.withAccessEntries, Value.thaw, h.2] using hv
      · simpa [thaw, Value.withAccessEntries, h.1] using ih h.2

end Entries

namespace Value

mutual

theorem isWellKeyed_withAccess (a : Access) :
    ∀ v : Value, isWellKeyed (withAccess a v) = isWellKeyed v
  | .sequence _ items => by
      simp only [withAccess, isWellKeyed, allWellKeyed_withAccessAll a items]
  | .mapping _ entries => by
      simp only [withAccess, isWellKeyed, entriesWellKeyed_withAccessEntries a entries]
  | .null | .bool _ | .int _ | .float _ | .str _ | .bytes _ | .date _ | .moment _ | .foreign _
  | .set _ | .enclosing _ => rfl

theorem allWellKeyed_withAccessAll (a : Access) :
    ∀ items : List Value, allWellKeyed (withAccessAll a items) = allWellKeyed items
  | [] => rfl
  | x :: xs => by
      simp only [withAccessAll, allWellKeyed, isWellKeyed_withAccess a x,
        allWellKeyed_withAccessAll a xs]

theorem entriesWellKeyed_withAccessEntries (a : Access) :
    ∀ es : List (Value × Value), entriesWellKeyed (withAccessEntries a es) = entriesWellKeyed es
  | [] => rfl
  | (k, v) :: es => by
      have hkeys : ∀ fs : List (Value × Value),
          (withAccessEntries a fs).all (fun e => !k.equals e.1) =
            fs.all (fun e => !k.equals e.1) := by
        intro fs
        induction fs with
        | nil => rfl
        | cons f fs ih => simp [withAccessEntries, ih]
      simp only [withAccessEntries, entriesWellKeyed, hkeys es, isWellKeyed_withAccess a v,
        entriesWellKeyed_withAccessEntries a es]

end

end Value

/-- Merging keeps a mapping one. -/
theorem Entries.isWellKeyed_kept : KeptByMerging (fun v => v.isWellKeyed = true)
    (fun v => v.isWellKeyed = true) Entries.IsWellKeyed Entries.IsWellKeyed where
  copy v hv := (Value.isWellKeyed_withAccess .writable v).trans hv
  entries _ es hv := (Value.entriesWellKeyed_withAccessEntries .writable es).trans hv
  object _ hes := hes
  get? _ _ _ hes hv := hes.get? hv
  under _ _ hv := hv
  head _ _ _ hes := (Entries.isWellKeyed_cons.mp hes).2.1
  tail _ _ _ hes := (Entries.isWellKeyed_cons.mp hes).2.2
  put _ _ _ _ _ hbase hes hw := hbase.put (Entries.isWellKeyed_cons.mp hes).1.1 hw

mutual

theorem Value.thaw_mergeOver (current : Option Value) :
    ∀ v : Value, (v.mergeOver current).thaw = v.mergeOver current
  | .mapping access entries => by
      have hcopy : (Value.mapping access entries).thaw.thaw = (Value.mapping access entries).thaw :=
        Value.withAccess_withAccess _ _ _
      cases current with
      | none => simpa only [Value.mergeOver] using hcopy
      | some below =>
          cases below with
          | mapping a es =>
              have hes : Entries.thaw (Entries.thaw es) = Entries.thaw es :=
                Value.withAccessEntries_withAccessEntries _ _ es
              simp only [Value.mergeOver, Value.thaw, Value.withAccess, Value.mapping.injEq,
                true_and]
              exact Entries.thaw_mergeInto _ hes entries
          | _ => simpa only [Value.mergeOver] using hcopy
  | .sequence access items => Value.withAccess_withAccess _ _ (.sequence access items)
  | .null | .bool _ | .int _ | .float _ | .str _ | .bytes _ | .date _ | .moment _ | .foreign _
  | .set _ | .enclosing _ => rfl

/-- Merging over writable entries gives writable ones. -/
theorem Entries.thaw_mergeInto (base : Entries) (hbase : Entries.thaw base = base) :
    ∀ es : List (Value × Value),
      Entries.thaw (Entries.mergeInto base es) = Entries.mergeInto base es
  | [] => hbase
  | (k, v) :: es => by
      refine Entries.thaw_mergeInto _ ?_ es
      exact Entries.thaw_put hbase k (Value.thaw_mergeOver (Entries.get? base k) v)

end

def Value.mergeAllOver (current : Option Value) (values : List Value) : Option Value :=
  values.foldl (fun below v => some (v.mergeOver below)) current

namespace Entries

/-! What a merge leaves under a key, and which keys it leaves. -/

theorem get?_mergeInto {base es : Entries} (hbase : IsWellKeyed base) (hes : IsWellKeyed es)
    {key : Value} (hkey : key.unhashable? = none) :
    get? (mergeInto base es) key =
      ((get? es key).map fun v => v.mergeOver (get? base key)).or (get? base key) := by
  induction es generalizing base with
  | nil => rfl
  | cons e es ih =>
      obtain ⟨k, v⟩ := e
      obtain ⟨⟨hk, hnew⟩, hv, hrest⟩ := isWellKeyed_cons.mp hes
      have hmerged : (v.mergeOver (get? base k)).isWellKeyed = true :=
        isWellKeyed_kept.mergeOver _ (fun _ hw => hbase.get? hw) v hv
      simp only [mergeInto]
      rw [ih (hbase.put hk hmerged) hrest, get?_put hbase.areKeys hk _ hkey, get?_cons]
      by_cases heq : key.equals k = true
      · -- no later entry of the override has this key
        have hlater := get?_of_new hrest.areKeys hk hnew hkey heq
        simp [heq, hlater, get?_congr hbase.areKeys hkey hk heq]
      · simp [heq]

/-- The keys of an override are there after the merge, and those that were there still are. -/
theorem isSome_get?_mergeInto {base es : Entries} (hbase : IsWellKeyed base) (hes : IsWellKeyed es)
    {key : Value} (hkey : key.unhashable? = none) :
    (get? (mergeInto base es) key).isSome =
      ((get? base key).isSome || (get? es key).isSome) := by
  rw [get?_mergeInto hbase hes hkey]
  cases get? es key <;> simp

/-- An override whose keys are all there keeps the keys. -/
theorem keys_mergeInto {base es : Entries} (hbase : IsWellKeyed base) (hes : IsWellKeyed es)
    (hthere : ∀ k ∈ keys es, (get? base k).isSome = true) :
    keys (mergeInto base es) = keys base := by
  induction es generalizing base with
  | nil => rfl
  | cons e es ih =>
      obtain ⟨k, v⟩ := e
      obtain ⟨⟨hk, -⟩, hv, hrest⟩ := isWellKeyed_cons.mp hes
      have hmerged : (v.mergeOver (get? base k)).isWellKeyed = true :=
        isWellKeyed_kept.mergeOver _ (fun _ hw => hbase.get? hw) v hv
      have hput := keys_put_of_isSome (v.mergeOver (get? base k)) (hthere k (by simp [keys]))
      simp only [mergeInto]
      rw [ih (hbase.put hk hmerged) hrest, hput]
      intro l hl
      rw [get?_isSome_iff, hput, ← get?_isSome_iff]
      exact hthere l (by simp only [keys, List.map_cons] at hl ⊢; exact List.mem_cons_of_mem _ hl)

/-- Over nothing an override is copied. -/
theorem mergeInto_nil {es : Entries} (hes : IsWellKeyed es) : mergeInto [] es = thaw es := by
  have hafter (before : Entries) (hbefore : ∀ k ∈ keys es, get? before k = none) :
      mergeInto before es = before ++ thaw es := by
    induction es generalizing before with
    | nil => simp [mergeInto, thaw, Value.withAccessEntries]
    | cons e es ih =>
        obtain ⟨k, v⟩ := e
        obtain ⟨⟨hk, hnew⟩, hv, hrest⟩ := isWellKeyed_cons.mp hes
        have hnone := hbefore k (by simp [keys])
        have hcopy : v.mergeOver none = v.thaw := by cases v <;> rfl
        simp only [mergeInto]
        rw [hnone, hcopy, put_of_isNone _ hnone, ih hrest]
        · simp [thaw, Value.withAccessEntries, Value.thaw]
        · intro l hl
          obtain ⟨e, he, rfl⟩ := List.mem_map.mp hl
          have hbeforeNone : get? before e.1 = none := hbefore e.1 (List.mem_cons_of_mem _ hl)
          have hunequal : e.1.equals k = false := by
            rw [Value.equals_comm (hrest.areKeys e he) hk, hnew e he]
          rw [get?, Option.map_eq_none_iff] at hbeforeNone ⊢
          simp [List.find?_append, hbeforeNone, hunequal]
  simpa using hafter [] fun _ _ => get?_nil _

def mergeAll (base : Entries) (overrides : List Entries) : Entries := overrides.foldl mergeInto base

variable {base : Entries} {overrides : List Entries}

theorem mergeAll_cons (base es : Entries) (rest : List Entries) :
    mergeAll base (es :: rest) = mergeAll (mergeInto base es) rest := rfl

theorem isWellKeyed_mergeAll (hbase : IsWellKeyed base) (h : ∀ es ∈ overrides, IsWellKeyed es) :
    IsWellKeyed (mergeAll base overrides) := by
  induction overrides generalizing base with
  | nil => exact hbase
  | cons es rest ih =>
      obtain ⟨hes, hrest⟩ := List.forall_mem_cons.mp h
      exact ih (isWellKeyed_kept.mergeInto base hbase es hes) hrest

theorem thaw_mergeAll (hbase : thaw base = base) :
    thaw (mergeAll base overrides) = mergeAll base overrides := by
  induction overrides generalizing base with
  | nil => exact hbase
  | cons es rest ih => exact ih (thaw_mergeInto base hbase es)

/-- Deep merges one after the other are merges into the writable copy of the base. -/
theorem foldl_deepMerge (hbase : thaw base = base) :
    overrides.foldl deepMerge base = mergeAll base overrides := by
  induction overrides generalizing base with
  | nil => rfl
  | cons es rest ih =>
      rw [List.foldl_cons, deepMerge, hbase]
      exact ih (thaw_mergeInto base hbase es)

/-- What several merges leave under a key depends only on what is under that key. -/
theorem get?_mergeAll (hbase : IsWellKeyed base) (h : ∀ es ∈ overrides, IsWellKeyed es)
    {key : Value} (hkey : key.unhashable? = none) :
    get? (mergeAll base overrides) key =
      Value.mergeAllOver (get? base key) (overrides.filterMap fun es => get? es key) := by
  induction overrides generalizing base with
  | nil => rfl
  | cons es rest ih =>
      obtain ⟨hes, hrest⟩ := List.forall_mem_cons.mp h
      have hnext := ih (isWellKeyed_kept.mergeInto base hbase es hes) hrest
      rw [get?_mergeInto hbase hes hkey] at hnext
      rw [List.filterMap_cons]
      cases hunder : get? es key with
      | none => simpa [mergeAll_cons, hunder] using hnext
      | some v => simpa [mergeAll_cons, hunder, Value.mergeAllOver] using hnext

theorem isSome_get?_mergeAll (hbase : IsWellKeyed base) (h : ∀ es ∈ overrides, IsWellKeyed es)
    {key : Value} (hkey : key.unhashable? = none) :
    (get? (mergeAll base overrides) key).isSome =
      ((get? base key).isSome || overrides.any fun es => (get? es key).isSome) := by
  induction overrides generalizing base with
  | nil => simp [mergeAll]
  | cons es rest ih =>
      obtain ⟨hes, hrest⟩ := List.forall_mem_cons.mp h
      have hnext := ih (isWellKeyed_kept.mergeInto base hbase es hes) hrest
      rw [isSome_get?_mergeInto hbase hes hkey] at hnext
      rw [List.any_cons, ← Bool.or_assoc, ← hnext]
      rfl

/-- Overrides whose keys are all there keep the keys. -/
theorem keys_mergeAll (hbase : IsWellKeyed base) (h : ∀ es ∈ overrides, IsWellKeyed es)
    (hthere : ∀ es ∈ overrides, ∀ k ∈ keys es, (get? base k).isSome = true) :
    keys (mergeAll base overrides) = keys base := by
  induction overrides generalizing base with
  | nil => rfl
  | cons es rest ih =>
      obtain ⟨hes, hrest⟩ := List.forall_mem_cons.mp h
      obtain ⟨hfirst, hothers⟩ := List.forall_mem_cons.mp hthere
      have hkeys := keys_mergeInto hbase hes hfirst
      have hnext := ih (isWellKeyed_kept.mergeInto base hbase es hes) hrest fun fs hfs k hk => by
        rw [get?_isSome_iff, hkeys, ← get?_isSome_iff]
        exact hothers fs hfs k hk
      exact hnext.trans hkeys

end Entries

namespace Value

/-- Only a mapping depends on what it is written over. -/
theorem mergeOver_of_not_mapping {v : Value} (h : v.isMapping = false) (c d : Option Value) :
    v.mergeOver c = v.mergeOver d := by
  cases v with
  | mapping => cases h
  | _ => rfl

/-- After something else than a mapping was written, what was there before does not count. -/
theorem mergeAllOver_of_not_mapping {vs : List Value} (h : ∃ v ∈ vs, v.isMapping = false)
    (c d : Option Value) : mergeAllOver c vs = mergeAllOver d vs := by
  induction vs generalizing c d with
  | nil => simp at h
  | cons v vs ih =>
      by_cases hrest : ∃ w ∈ vs, w.isMapping = false
      · exact ih hrest _ _
      · obtain ⟨w, hw, hplain⟩ := h
        rcases List.mem_cons.mp hw with rfl | hmem
        · rw [mergeAllOver, List.foldl_cons, mergeOver_of_not_mapping hplain c d]
          rfl
        · exact absurd ⟨w, hmem, hplain⟩ hrest

def entriesOf : List Value → List Entries
  | .mapping _ entries :: vs => entries :: entriesOf vs
  | _ :: vs => entriesOf vs
  | [] => []

/-- Mappings over a mapping are merged into its writable copy. -/
theorem mergeAllOver_mapping {vs : List Value} (h : ∀ v ∈ vs, v.isMapping = true) (hvs : vs ≠ [])
    (a : Access) (below : Entries) :
    mergeAllOver (some (.mapping a below)) vs =
      some (.object (Entries.mergeAll (Entries.thaw below) (entriesOf vs))) := by
  induction vs generalizing a below with
  | nil => exact absurd rfl hvs
  | cons v vs ih =>
      obtain ⟨hv, hrest⟩ := List.forall_mem_cons.mp h
      cases v with
      | mapping b es =>
          have hwritable : Entries.thaw (Entries.mergeInto (Entries.thaw below) es) =
              Entries.mergeInto (Entries.thaw below) es :=
            Entries.thaw_mergeInto _ (withAccessEntries_withAccessEntries _ _ below) es
          cases vs with
          | nil => rfl
          | cons w ws =>
              have hnext := ih hrest (by simp) .writable (Entries.mergeInto (Entries.thaw below) es)
              rw [hwritable] at hnext
              exact hnext
      | _ => cases hv

/-- Mappings over what is no mapping are merged into an empty one. -/
theorem mergeAllOver_of_no_mapping {vs : List Value} (h : ∀ v ∈ vs, v.isMapping = true)
    (hvs : vs ≠ []) (hkeyed : ∀ v ∈ vs, v.isWellKeyed = true) {c : Option Value}
    (hc : ∀ a es, c ≠ some (.mapping a es)) :
    mergeAllOver c vs = some (.object (Entries.mergeAll [] (entriesOf vs))) := by
  have hempty := mergeAllOver_mapping h hvs .writable []
  rw [show Entries.mergeAll [] (entriesOf vs) =
    Entries.mergeAll (Entries.thaw []) (entriesOf vs) from rfl, ← hempty]
  cases vs with
  | nil => exact absurd rfl hvs
  | cons v vs =>
      cases v with
      | mapping b es =>
          have hes : Entries.IsWellKeyed es := hkeyed _ (List.mem_cons_self ..)
          have hfirst : (Value.mapping b es).mergeOver c =
              (Value.mapping b es).mergeOver (some (.object [])) := by
            have hcopy : (Value.mapping b es).mergeOver c = (Value.mapping b es).thaw := by
              cases c with
              | none => rfl
              | some w =>
                  cases w with
                  | mapping a fs => exact absurd rfl (hc a fs)
                  | _ => rfl
            rw [hcopy, mergeOver, show Entries.thaw [] = [] from rfl, Entries.mergeInto_nil hes]
            rfl
          rw [mergeAllOver, List.foldl_cons, hfirst]
          rfl
      | _ => cases h _ (List.mem_cons_self ..)

/-- Values written again over what they left change nothing, if that holds of the entries of those
among them that are mappings. -/
theorem mergeAllOver_mergeAllOver {vs : List Value} (hkeyed : ∀ v ∈ vs, v.isWellKeyed = true)
    {c : Option Value} (hc : ∀ v, c = some v → v.isWellKeyed = true)
    (hentries : ∀ below : Entries, Entries.IsWellKeyed below → Entries.thaw below = below →
      Entries.mergeAll (Entries.mergeAll below (entriesOf vs)) (entriesOf vs) =
        Entries.mergeAll below (entriesOf vs)) :
    mergeAllOver (mergeAllOver c vs) vs = mergeAllOver c vs := by
  by_cases hplain : ∃ v ∈ vs, v.isMapping = false
  · exact mergeAllOver_of_not_mapping hplain _ _
  have hmappings : ∀ v ∈ vs, v.isMapping = true := by simpa using hplain
  by_cases hvs : vs = []
  · rw [hvs]
    rfl
  -- what was there counts as a mapping, an empty one if it was none
  obtain ⟨below, hbelow, hwritable, hmerged⟩ : ∃ below : Entries, Entries.IsWellKeyed below ∧
      Entries.thaw below = below ∧
      mergeAllOver c vs = some (.object (Entries.mergeAll below (entriesOf vs))) := by
    by_cases hc' : ∃ a es, c = some (.mapping a es)
    · obtain ⟨a, es, rfl⟩ := hc'
      exact ⟨Entries.thaw es, (entriesWellKeyed_withAccessEntries .writable es).trans (hc _ rfl),
        withAccessEntries_withAccessEntries _ _ es, mergeAllOver_mapping hmappings hvs a es⟩
    · have hnone : ∀ a es, c ≠ some (.mapping a es) := fun a es heq => hc' ⟨a, es, heq⟩
      exact ⟨[], rfl, rfl, mergeAllOver_of_no_mapping hmappings hvs hkeyed hnone⟩
  have hresult := mergeAllOver_mapping hmappings hvs .writable
    (Entries.mergeAll below (entriesOf vs))
  rw [Entries.thaw_mergeAll hwritable, hentries below hbelow hwritable] at hresult
  rw [hmerged, hresult]

theorem mem_entriesOf {vs : List Value} {es : Entries} (h : es ∈ entriesOf vs) :
    ∃ a, Value.mapping a es ∈ vs := by
  induction vs with
  | nil => simp [entriesOf] at h
  | cons v vs ih =>
      cases v with
      | mapping a fs =>
          rcases List.mem_cons.mp h with rfl | hmem
          · exact ⟨a, by simp⟩
          · obtain ⟨b, hb⟩ := ih hmem
            exact ⟨b, by simp [hb]⟩
      | _ =>
          obtain ⟨b, hb⟩ := ih h
          exact ⟨b, by simp [hb]⟩

end Value

namespace Entries

/-- What stands under a key is smaller than the whole. -/
theorem sizeOf_get? {es : Entries} {key v : Value} (h : get? es key = some v) :
    sizeOf v < sizeOf es := by
  obtain ⟨k, hmem⟩ := exists_mem_of_get? h
  have hentry : sizeOf (k, v) < sizeOf es := List.sizeOf_lt_of_mem hmem
  rw [Prod.mk.sizeOf_spec] at hentry
  omega

/-- Merging the same overrides again changes nothing, neither a value nor the order of keys. The
induction is on a bound of the overrides' sizes: what they have under one key is smaller. -/
theorem mergeAll_mergeAll {base : Entries} {overrides : List Entries} (hbase : IsWellKeyed base)
    (hwritable : thaw base = base) (h : ∀ es ∈ overrides, IsWellKeyed es) :
    mergeAll (mergeAll base overrides) overrides = mergeAll base overrides := by
  have hbounded (n : Nat) : ∀ (overrides : List Entries) (base : Entries),
      (∀ es ∈ overrides, sizeOf es ≤ n) → (∀ es ∈ overrides, IsWellKeyed es) → IsWellKeyed base →
      thaw base = base →
      mergeAll (mergeAll base overrides) overrides = mergeAll base overrides := by
    induction n with
    | zero =>
        intro overrides base hsize
        cases overrides with
        | nil => intros; rfl
        | cons es rest =>
            have hes := hsize es (by simp)
            cases es <;> simp at hes
    | succ n ih =>
        intro overrides base hsize h hbase hwritable
        have hmerged := isWellKeyed_mergeAll hbase h
        have hthere : ∀ es ∈ overrides, ∀ k ∈ keys es,
            (get? (mergeAll base overrides) k).isSome = true := by
          intro es hes k hk
          obtain ⟨e, he, rfl⟩ := List.mem_map.mp hk
          have hkey := (h es hes).areKeys e he
          have hself : (get? es e.1).isSome = true :=
            get?_isSome_iff.mpr ⟨e.1, hk, Value.equals_self hkey⟩
          rw [isSome_get?_mergeAll hbase h hkey, List.any_eq_true.mpr ⟨es, hes, hself⟩,
            Bool.or_true]
        have hkeys := keys_mergeAll hmerged h hthere
        have hagain := isWellKeyed_mergeAll hmerged h
        refine ext_of_keys hagain.areKeys hagain.distinct hkeys fun key hmem => ?_
        obtain ⟨e, he, rfl⟩ := List.mem_map.mp hmem
        have hkey := hagain.areKeys e he
        rw [get?_mergeAll hmerged h hkey, get?_mergeAll hbase h hkey]
        have hunder : ∀ v ∈ overrides.filterMap fun es => get? es e.1,
            v.isWellKeyed = true ∧ sizeOf v ≤ n := by
          intro v hv
          obtain ⟨es, hes, hget⟩ := List.mem_filterMap.mp hv
          have hsmaller := sizeOf_get? hget
          have hes' := hsize es hes
          exact ⟨(h es hes).get? hget, by omega⟩
        refine Value.mergeAllOver_mergeAllOver (fun v hv => (hunder v hv).1)
          (fun v hv => hbase.get? hv) fun below hbelow hthawed => ?_
        refine ih _ below (fun es hes => ?_) (fun es hes => ?_) hbelow hthawed
        · obtain ⟨a, ha⟩ := Value.mem_entriesOf hes
          have hv := (hunder _ ha).2
          simp only [Value.mapping.sizeOf_spec] at hv
          omega
        · obtain ⟨a, ha⟩ := Value.mem_entriesOf hes
          exact (hunder _ ha).1
  have hsize : ∀ es ∈ overrides, sizeOf es ≤ sizeOf overrides := fun es hes =>
    Nat.le_of_lt (List.sizeOf_lt_of_mem hes)
  exact hbounded _ overrides base hsize h hbase hwritable

end Entries

end FunctionPipeline

import FunctionPipeline.Invocation.Response
import FunctionPipeline.Proofs.Document.FreshStarts
import FunctionPipeline.Proofs.Document.MergePaths
import Mathlib.Data.List.Induction

/-!
The delta of an invocation's status updates. Merging it once into a status gives what the updates
give one by one, provided that no update has a mapping at a path where an earlier one has something
else: `deepMerge_statusDelta`. Deep merge is not associative. What is left under a key is settled
key by key, where either some update has no mapping, and then the last one has none and what was
there before does not count, or all of them have mappings, and then the same holds one level below.
-/

namespace FunctionPipeline

namespace Value

/-- Where the later of two values has a mapping, the earlier one has a mapping or nothing. -/
def Spares (earlier later : Value) : Prop :=
  ∀ path, (∀ k ∈ path, k.unhashable? = none) → ∀ v w, earlier.along? path = some v →
    later.along? path = some w → w.isMapping = true → v.isMapping = true

theorem spares_of_not_mapping {v w : Value} (hw : w.isMapping = false) : v.Spares w := by
  intro path _ x y _ hy hmapping
  cases path with
  | nil =>
      obtain rfl := Option.some.inj hy
      rw [hw] at hmapping
      cases hmapping
  | cons key rest =>
      rw [along?_of_not_mapping hw] at hy
      cases hy

/-- At the empty path the values themselves are compared. -/
theorem Spares.here {v w : Value} (h : v.Spares w) (hw : w.isMapping = true) :
    v.isMapping = true :=
  h [] (by simp) v w rfl rfl hw

section

variable {a b : Access} {es fs : Entries}

theorem spares_mapping_iff (hes : entryReference es = false) (hfs : entryReference fs = false) :
    (mapping a es).Spares (mapping b fs) ↔
      ∀ key v w, key.unhashable? = none → Entries.get? es key = some v →
        Entries.get? fs key = some w → v.Spares w := by
  constructor
  · intro h key v w hkey hv hw path hpath x y hx hy
    refine h (key :: path) (List.forall_mem_cons.mpr ⟨hkey, hpath⟩) x y ?_ ?_
    · rw [along?_cons hes, hv]
      exact hx
    · rw [along?_cons hfs, hw]
      exact hy
  · intro h path hpath x y hx hy hmapping
    cases path with
    | nil =>
        obtain rfl := Option.some.inj hx
        rfl
    | cons key rest =>
        obtain ⟨hkey, hrest⟩ := List.forall_mem_cons.mp hpath
        rw [along?_cons hes, Option.bind_eq_some_iff] at hx
        rw [along?_cons hfs, Option.bind_eq_some_iff] at hy
        obtain ⟨v, hv, hx⟩ := hx
        obtain ⟨w, hw, hy⟩ := hy
        exact h key v w hkey hv hw rest hrest x y hx hy hmapping

end

mutual

/-- Whether an earlier value is spared by a later one, by the entries of the later one. -/
def spares (earlier : Value) : Value → Bool
  | .mapping _ fs =>
      match earlier with
      | .mapping _ es => sparesEntries es fs
      | _ => false
  | _ => true

def sparesEntries (es : Entries) : List (Value × Value) → Bool
  | [] => true
  | (key, later) :: fs =>
      (match Entries.get? es key with
        | some earlier => spares earlier later
        | none => true) && sparesEntries es fs

end

mutual

theorem spares_iff : ∀ {v w : Value}, v.IsMergeable → w.IsMergeable →
    (v.spares w = true ↔ v.Spares w)
  | v, .mapping b fs, hv, hfs => by
      cases v with
      | mapping a es =>
          rw [spares, spares_mapping_iff hv.finite hfs.finite]
          exact sparesEntries_iff hv hfs
      | _ =>
          constructor
          · intro h
            cases h
          · intro h
            cases h.here rfl
  | v, .null, _, _ | v, .bool _, _, _ | v, .int _, _, _ | v, .float _, _, _ | v, .str _, _, _
  | v, .bytes _, _, _ | v, .date _, _, _ | v, .moment _, _, _ | v, .foreign _, _, _
  | v, .set _, _, _ | v, .sequence .., _, _ | v, .enclosing _, _, _ =>
      ⟨fun _ => spares_of_not_mapping rfl, fun _ => rfl⟩

theorem sparesEntries_iff {a b : Access} {es : Entries} (hes : (mapping a es).IsMergeable) :
    ∀ {fs : List (Value × Value)}, (mapping b fs).IsMergeable →
      (sparesEntries es fs = true ↔
        ∀ key v w, key.unhashable? = none → Entries.get? es key = some v →
          Entries.get? fs key = some w → v.Spares w)
  | [], _ => ⟨fun _ _ _ _ _ _ hw => (by cases hw), fun _ => rfl⟩
  | (k, x) :: fs, hfs => by
      obtain ⟨⟨hk, hnew⟩, hx, hrest⟩ := Entries.isWellKeyed_cons.mp hfs.keyed
      obtain ⟨hfinite, hothers⟩ : x.hasReference = false ∧ entryReference fs = false := by
        simpa only [hasReference, entryReference, Bool.or_eq_false_iff] using hfs.finite
      have hbelow := sparesEntries_iff (b := b) hes ⟨hothers, hrest⟩
      rw [sparesEntries, Bool.and_eq_true, hbelow]
      constructor
      · rintro ⟨hfirst, hlater⟩ key v w hkey hv hw
        rw [Entries.get?_cons] at hw
        split at hw
        next hequal =>
          obtain rfl := Option.some.inj hw
          have hv' := hv
          rw [Entries.get?_congr (Entries.IsWellKeyed.areKeys hes.keyed) hkey hk hequal] at hv'
          rw [hv'] at hfirst
          exact (spares_iff (hes.under hv) ⟨hfinite, hx⟩).mp hfirst
        next => exact hlater key v w hkey hv hw
      · intro h
        constructor
        · split
          next v hv =>
            rw [spares_iff (hes.under hv) ⟨hfinite, hx⟩]
            apply h k v x hk hv
            rw [Entries.get?_cons, Value.equals_self hk]
            rfl
          next => rfl
        · intro key v w hkey hv hw
          apply h key v w hkey hv
          rw [Entries.get?_cons]
          split
          next hequal =>
            -- the first entry's key stands there only once
            rw [Entries.get?_of_new hrest.areKeys hk hnew hkey hequal] at hw
            cases hw
          next => exact hw

end

end Value

/-- No update has a mapping at a path where an earlier one has something else. -/
def NoneStartsAfresh (updates : List Entries) : Prop :=
  updates.Pairwise fun earlier later => (Value.object earlier).Spares (.object later)

theorem noneStartsAfresh_iff {updates : List Entries}
    (h : ∀ es ∈ updates, (Value.object es).IsMergeable) :
    NoneStartsAfresh updates ↔
      updates.Pairwise fun earlier later =>
        (Value.object earlier).spares (.object later) = true := by
  apply List.Pairwise.iff_of_mem
  intro es fs hes hfs
  exact (Value.spares_iff (h es hes) (h fs hfs)).symm

namespace Value

theorem noneStartsAfresh_entriesOf {vs : List Value} (hall : ∀ v ∈ vs, v.isMapping = true)
    (hfinite : ∀ v ∈ vs, v.hasReference = false) (h : vs.Pairwise Spares) :
    NoneStartsAfresh (entriesOf vs) := by
  induction vs with
  | nil => exact List.Pairwise.nil
  | cons v vs ih =>
      obtain ⟨hv, hrest⟩ := List.forall_mem_cons.mp hall
      obtain ⟨hes, hothers⟩ := List.forall_mem_cons.mp hfinite
      obtain ⟨hspares, hlater⟩ := List.pairwise_cons.mp h
      cases v with
      | mapping a es =>
          refine List.pairwise_cons.mpr ⟨fun fs hfs => ?_, ih hrest hothers hlater⟩
          obtain ⟨b, hmem⟩ := mem_entriesOf hfs
          have hfs' : entryReference fs = false := hothers _ hmem
          rw [spares_mapping_iff hes hfs']
          exact (spares_mapping_iff hes hfs').mp (hspares _ hmem)
      | _ => cases hv

/-- Of values that spare each other the last one is no mapping if any of them is none. -/
theorem last_of_not_mapping {before : List Value} {v : Value}
    (h : (before ++ [v]).Pairwise Spares) (hplain : ∃ w ∈ before ++ [v], w.isMapping = false) :
    v.isMapping = false := by
  obtain ⟨w, hw, hplain⟩ := hplain
  rcases List.mem_append.mp hw with hbefore | hlast
  · have hspares : w.Spares v := (List.pairwise_append.mp h).2.2 w hbefore v (by simp)
    rw [Bool.eq_false_iff] at hplain ⊢
    intro hv
    exact hplain (hspares.here hv)
  · obtain rfl := List.mem_singleton.mp hlast
    exact hplain

/-- Values that spare each other, written one by one over what stands under a key, leave what they
come to from nothing, written over it at once, if this holds of the entries of mappings over those
of a mapping. -/
theorem mergeAllOver_eq_map {vs : List Value} (hvs : vs ≠ [])
    (hkeyed : ∀ v ∈ vs, v.isWellKeyed = true) (h : vs.Pairwise Spares) (current : Option Value)
    (hbelow : ∀ access below, current = some (mapping access below) →
      (∀ v ∈ vs, v.isMapping = true) →
      Entries.mergeAll (Entries.thaw below) (entriesOf vs) =
        Entries.mergeInto (Entries.thaw below) (Entries.mergeAll [] (entriesOf vs))) :
    mergeAllOver current vs = (mergeAllOver none vs).map fun v => v.mergeOver current := by
  by_cases hplain : ∃ v ∈ vs, v.isMapping = false
  · obtain ⟨before, v, rfl⟩ := vs.eq_nil_or_concat'.resolve_left hvs
    have hv := last_of_not_mapping h hplain
    rw [mergeAllOver_concat, mergeAllOver_concat, Option.map_some,
      mergeOver_of_not_mapping_eq_thaw hv, mergeOver_of_not_mapping_eq_thaw hv, mergeOver_thaw,
      mergeOver_of_not_mapping_eq_thaw hv]
  · have hall : ∀ v ∈ vs, v.isMapping = true := by simpa using hplain
    have hnothing := mergeAllOver_of_no_mapping (c := none) hall hvs hkeyed (by simp)
    rw [hnothing, Option.map_some]
    by_cases hmapping : ∃ access below, current = some (mapping access below)
    · obtain ⟨access, below, rfl⟩ := hmapping
      rw [mergeAllOver_mapping hall hvs, mergeOver, hbelow access below rfl hall]
    · have hnone : ∀ access below, current ≠ some (mapping access below) :=
        fun access below heq => hmapping ⟨access, below, heq⟩
      rw [mergeAllOver_of_no_mapping hall hvs hkeyed hnone, mergeOver_eq_thaw]
      · rw [thaw, withAccess]
        exact congrArg (fun es => some (object es)) (Entries.thaw_mergeAll rfl).symm
      · rintro v rfl
        cases v with
        | mapping access below => exact absurd rfl (hnone access below)
        | _ => rfl

end Value

namespace Entries

variable {base : Entries} {updates : List Entries}

/-- A key of a further update is new if it is new after the updates alone and not in the base. -/
theorem newKeys_mergeAll (hbase : IsWellKeyed base) (h : ∀ es ∈ updates, IsWellKeyed es)
    {es : Entries} (hes : IsWellKeyed es) :
    newKeys (mergeAll base updates) es =
      (newKeys (mergeAll [] updates) es).filter fun k => (get? base k).isNone := by
  rw [newKeys, newKeys, List.filter_filter]
  refine List.filter_congr fun k hk => ?_
  obtain ⟨e, he, rfl⟩ := List.mem_map.mp hk
  have hkey := hes.areKeys e he
  have hthere := isSome_get?_mergeAll hbase h hkey
  have hdelta := isSome_get?_mergeAll isProper_nil.mappings h hkey
  rw [get?_nil, Option.isSome_none, Bool.false_or] at hdelta
  rw [← Option.not_isSome, ← Option.not_isSome, ← Option.not_isSome, hthere, hdelta, Bool.not_or]

/-- Overrides put the keys that are new after those that are there, in the order in which they come
to them from nothing. -/
theorem keys_mergeAll_eq (hbase : IsWellKeyed base) (h : ∀ es ∈ updates, IsWellKeyed es) :
    keys (mergeAll base updates) = keys base ++ newKeys base (mergeAll [] updates) := by
  induction updates using List.reverseRecOn with
  | nil => simp [mergeAll, newKeys, keys]
  | append_singleton rest es ih =>
      obtain ⟨hrest, hlast⟩ := List.forall_mem_append.mp h
      have hes : IsWellKeyed es := hlast es (by simp)
      have hthere := isWellKeyed_mergeAll hbase hrest
      have hdelta := isWellKeyed_mergeAll isProper_nil.mappings hrest
      have hconcat (start : Entries) :
          mergeAll start (rest ++ [es]) = mergeInto (mergeAll start rest) es := by
        simp [mergeAll]
      have hcut : newKeys base (mergeInto (mergeAll [] rest) es) =
          newKeys base (mergeAll [] rest) ++
            (newKeys (mergeAll [] rest) es).filter fun k => (get? base k).isNone := by
        rw [newKeys, keys_mergeInto_eq hdelta hes, List.filter_append]
        rfl
      rw [hconcat, hconcat, keys_mergeInto_eq hthere hes, ih hrest,
        newKeys_mergeAll hbase hrest hes, hcut, List.append_assoc]

/-- Updates of which none starts a mapping afresh come to one: merged one by one into a base they
leave what their own merge leaves, the order of keys included. The induction is on the base. -/
theorem mergeAll_eq_mergeInto (hbase : IsWellKeyed base) (hwritable : thaw base = base)
    (hupdates : ∀ es ∈ updates, (Value.object es).IsMergeable) (h : NoneStartsAfresh updates) :
    mergeAll base updates = mergeInto base (mergeAll [] updates) := by
  induction hsize : sizeOf base using Nat.strongRecOn generalizing base updates with
  | ind n ih =>
      have hkeyed : ∀ es ∈ updates, IsWellKeyed es := fun es hes => (hupdates es hes).keyed
      have hdelta := isWellKeyed_mergeAll isProper_nil.mappings hkeyed
      have hmerged := isWellKeyed_mergeAll hbase hkeyed
      refine ext_of_keys hmerged.areKeys hmerged.distinct ?_ fun key hmem => ?_
      · rw [keys_mergeAll_eq hbase hkeyed, keys_mergeInto_eq hbase hdelta]
      obtain ⟨e, he, rfl⟩ := List.mem_map.mp hmem
      have hkey := hmerged.areKeys e he
      rw [get?_mergeAll hbase hkeyed hkey, get?_mergeInto hbase hdelta hkey,
        get?_mergeAll isProper_nil.mappings hkeyed hkey, get?_nil]
      generalize hvs : updates.filterMap (fun es => get? es e.1) = vs
      have hunder : ∀ v ∈ vs, v.IsMergeable := by
        intro v hv
        rw [← hvs] at hv
        obtain ⟨es, hes, hget⟩ := List.mem_filterMap.mp hv
        exact (hupdates es hes).under hget
      have hspares : vs.Pairwise Value.Spares := by
        rw [← hvs, List.pairwise_filterMap]
        refine List.Pairwise.imp_of_mem (fun {es fs} hes hfs hspares v hv w hw => ?_) h
        exact (Value.spares_mapping_iff (hupdates es hes).finite (hupdates fs hfs).finite).mp
          hspares e.1 v w hkey hv hw
      by_cases hnil : vs = []
      · subst hnil
        rfl
      rw [Value.mergeAllOver_eq_map hnil (fun v hv => (hunder v hv).keyed) hspares]
      · obtain ⟨before, v, rfl⟩ := vs.eq_nil_or_concat'.resolve_left hnil
        rw [Value.mergeAllOver_concat]
        rfl
      · intro access below hcurrent hall
        have hthawed : thaw below = below := by
          have hcopy := get?_thaw base e.1
          rw [hwritable, hcurrent, Option.map_some, Option.some.injEq] at hcopy
          simp only [Value.thaw, Value.withAccess, Value.mapping.injEq] at hcopy
          exact hcopy.2.symm
        have hsmaller : sizeOf below < n := by
          have hunder := sizeOf_get? hcurrent
          rw [Value.mapping.sizeOf_spec] at hunder
          omega
        rw [hthawed]
        apply ih _ hsmaller
        · exact hbase.get? hcurrent
        · exact hthawed
        · intro es hes
          obtain ⟨a, hmem⟩ := Value.mem_entriesOf hes
          exact ⟨(hunder _ hmem).finite, (hunder _ hmem).keyed⟩
        · exact Value.noneStartsAfresh_entriesOf hall (fun v hv => (hunder v hv).finite) hspares
        · rfl

end Entries

namespace Value

variable {es : Entries} {updates : List Entries}

theorem isMergeable_foldl (hes : (object es).IsMergeable)
    (h : ∀ update ∈ updates, (object update).IsMergeable) :
    (object (updates.foldl Entries.deepMerge es)).IsMergeable := by
  induction updates generalizing es with
  | nil => exact hes
  | cons update rest ih =>
      obtain ⟨hupdate, hrest⟩ := List.forall_mem_cons.mp h
      exact ih (isMergeable_deepMerge hes hupdate) hrest

/-- Merges of finite mappings never fail, one after the other. -/
theorem foldlM_deepMerge (hes : (object es).IsMergeable)
    (h : ∀ update ∈ updates, (object update).IsMergeable) :
    updates.foldlM (fun status update => Value.deepMerge status (.object update)) (object es) =
      .ok (object (updates.foldl Entries.deepMerge es)) := by
  induction updates generalizing es with
  | nil => rfl
  | cons update rest ih =>
      obtain ⟨hupdate, hrest⟩ := List.forall_mem_cons.mp h
      rw [List.foldlM_cons, deepMerge_of_mergeable hes hupdate]
      exact ih (isMergeable_deepMerge hes hupdate) hrest

end Value

namespace Response

variable {r : Response}

/-- The delta is what the updates come to from nothing. -/
theorem statusDelta_eq (r : Response) : r.statusDelta = Entries.mergeAll [] r.statusUpdates :=
  Entries.foldl_deepMerge rfl

theorem isMergeable_statusDelta
    (h : ∀ update ∈ r.statusUpdates, (Value.object update).IsMergeable) :
    (Value.object r.statusDelta).IsMergeable :=
  Value.isMergeable_foldl ⟨rfl, rfl⟩ h

/-- A status that is a mapping has the updates applied, unless it holds itself. -/
theorem applyStatusTo_mapping
    (h : ∀ update ∈ r.statusUpdates, (Value.object update).IsMergeable) {access : Access}
    {status : Entries} (hstatus : (Value.mapping access status).IsMergeable) :
    r.applyStatusTo (.mapping access status) = .ok (.object (r.applyStatus status)) := by
  have hcopy : (Value.object (Entries.thaw status)).IsMergeable := by
    constructor
    · exact (Value.entryReference_withAccessEntries .writable status).trans hstatus.finite
    · exact (Value.entriesWellKeyed_withAccessEntries .writable status).trans hstatus.keyed
  rw [applyStatusTo, hstatus.finite, if_neg Bool.false_ne_true]
  exact Value.foldlM_deepMerge hcopy h

/-- Merging the delta of a response once gives the same status as applying its updates one by one,
the order of keys included, if no update has a mapping at a path where an earlier one has something
else. There is such a status unless the one before holds itself. -/
theorem deepMerge_statusDelta {status : Entries} (hstatus : Entries.IsWellKeyed status)
    (hupdates : ∀ update ∈ r.statusUpdates, (Value.object update).IsMergeable)
    (h : NoneStartsAfresh r.statusUpdates) :
    status.deepMerge r.statusDelta = r.applyStatus status ∧
    ∀ access,
      Value.deepMerge (.mapping access status) (.mapping .readOnly r.statusDelta) =
        r.applyStatusTo (.mapping access status) ∧
      ((Value.mapping access status).hasReference = false →
        r.applyStatusTo (.mapping access status) = .ok (.object (r.applyStatus status))) := by
  have hwritable : Entries.thaw (Entries.thaw status) = Entries.thaw status :=
    Value.withAccessEntries_withAccessEntries _ _ status
  have hkeyed : Entries.IsWellKeyed (Entries.thaw status) :=
    (Value.entriesWellKeyed_withAccessEntries .writable status).trans hstatus
  have hmerged : status.deepMerge r.statusDelta = r.applyStatus status := by
    rw [Entries.deepMerge, statusDelta_eq, applyStatus, Entries.foldl_deepMerge hwritable]
    exact (Entries.mergeAll_eq_mergeInto hkeyed hwritable hupdates h).symm
  refine ⟨hmerged, fun access => ⟨?_, fun hfinite => ?_⟩⟩
  · cases hreference : (Value.mapping access status).hasReference with
    | true =>
        have hendless : Value.deepMerge (.mapping access status)
            (.mapping .readOnly r.statusDelta) = .error .endless := by
          unfold Value.deepMerge
          exact if_pos hreference
        rw [hendless, applyStatusTo, if_pos hreference]
    | false =>
        have hbase : (Value.mapping access status).IsMergeable := ⟨hreference, hstatus⟩
        have hdelta : (Value.mapping .readOnly r.statusDelta).IsMergeable :=
          ⟨(isMergeable_statusDelta hupdates).finite, (isMergeable_statusDelta hupdates).keyed⟩
        rw [applyStatusTo_mapping hupdates hbase, ← hmerged]
        exact Value.deepMerge_of_mergeable hbase hdelta
  · exact applyStatusTo_mapping hupdates ⟨hfinite, hstatus⟩

/-- Updates that merge into one another, write a scalar over a mapping and come back to a key. -/
def zonedUpdates : Response where
  statusUpdates :=
    [[(.str "zone", .object [(.str "name", .str "a")]), (.str "phase", .object [(.int 1, .null)])],
      [(.str "size", .object [(.str "least", .int 1)]),
        (.str "zone", .mapping .readOnly [(.str "tags", .object [(.bool true, .str "k")])])],
      [(.str "phase", .str "done"),
        (.str "zone", .object [(.str "tags", .object [(.int 1, .str "l"), (.int 2, .null)])])]]
  ttl := 60

def zonedStatus : Entries :=
  [(.str "own", .list []), (.str "size", .int 3),
    (.str "zone", .mapping .readOnly [(.str "old", .tuple [.int 1]), (.str "tags", .str "none")])]

theorem deepMerge_statusDelta_zoned :
    Entries.IsWellKeyed zonedStatus ∧
      (∀ update ∈ zonedUpdates.statusUpdates, (Value.object update).IsMergeable) ∧
      NoneStartsAfresh zonedUpdates.statusUpdates ∧
      zonedStatus.deepMerge zonedUpdates.statusDelta = zonedUpdates.applyStatus zonedStatus ∧
      zonedUpdates.applyStatusTo (.object zonedStatus) =
        .ok (.object (zonedStatus.deepMerge zonedUpdates.statusDelta)) := by
  have hstatus : Entries.IsWellKeyed zonedStatus := by
    rw [Entries.IsWellKeyed]
    decide +kernel
  have hupdates : ∀ update ∈ zonedUpdates.statusUpdates, (Value.object update).IsMergeable := by
    have hall : zonedUpdates.statusUpdates.all (fun update =>
        !(Value.object update).hasReference && (Value.object update).isWellKeyed) = true := by
      decide +kernel
    intro update hmem
    have hupdate := List.all_eq_true.mp hall update hmem
    rw [Bool.and_eq_true, Bool.not_eq_true'] at hupdate
    exact ⟨hupdate.1, hupdate.2⟩
  have hnone : NoneStartsAfresh zonedUpdates.statusUpdates := by
    rw [noneStartsAfresh_iff hupdates]
    decide +kernel
  obtain ⟨hmerged, hchecked⟩ := deepMerge_statusDelta hstatus hupdates hnone
  refine ⟨hstatus, hupdates, hnone, hmerged, ?_⟩
  rw [hmerged]
  exact (hchecked .writable).2 (by decide +kernel)

end Response

end FunctionPipeline

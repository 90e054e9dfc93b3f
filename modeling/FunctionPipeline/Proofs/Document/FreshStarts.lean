import FunctionPipeline.Proofs.Document.Equality

/-!
Updates and their delta. The delta is what updates come to from nothing. It tells less than the
updates: where they give something else than a mapping and a mapping later, the later one starts
afresh, and what a status had there is lost, while the delta only has the later mapping. Lists of
updates with equal deltas that start the same mappings of a status afresh do the same to it.
-/

namespace FunctionPipeline

/-- The kinds of what updates have at a path, in order: true for a mapping. -/
def kindsAt (updates : List Entries) (path : List Value) : List Bool :=
  updates.filterMap fun es => ((Value.object es).along? path).map Value.isMapping

/-- Updates give something else than a mapping at a path, and a mapping later. -/
def StartsAfresh (updates : List Entries) (path : List Value) : Prop :=
  [false, true].Sublist (kindsAt updates path)

def HasMappingAt (es : Entries) (path : List Value) : Prop :=
  ∃ v, (Value.object es).along? path = some v ∧ v.isMapping = true

/-- Two lists of updates start the same mappings of a status afresh. -/
def StartSameAfresh (status : Entries) (updates others : List Entries) : Prop :=
  ∀ path, HasMappingAt status path → (StartsAfresh updates path ↔ StartsAfresh others path)

theorem StartSameAfresh.refl (status : Entries) (updates : List Entries) :
    StartSameAfresh status updates updates := fun _ _ => Iff.rfl

/-- If the last kind is a mapping, any other kind comes before it. -/
theorem false_true_sublist_iff (kinds : List Bool) :
    [false, true].Sublist (kinds ++ [true]) ↔ false ∈ kinds := by
  constructor
  · intro h
    have hmem : false ∈ kinds ++ [true] := h.subset (by simp)
    simpa using hmem
  · intro h
    exact (List.singleton_sublist.mpr h).append (List.Sublist.refl [true])

namespace Value

/-- What is written is of the overriding kind. -/
theorem isMapping_mergeOver (current : Option Value) (v : Value) :
    (v.mergeOver current).isMapping = v.isMapping := by
  cases v with
  | mapping access es =>
      cases current with
      | none => rfl
      | some w => cases w <;> rfl
  | _ => rfl

theorem mergeAllOver_concat (current : Option Value) (vs : List Value) (v : Value) :
    mergeAllOver current (vs ++ [v]) = some (v.mergeOver (mergeAllOver current vs)) := by
  simp [mergeAllOver]

/-- What was there counts only if it is a mapping and only mappings are written. -/
theorem mergeAllOver_eq_none {current : Option Value} {vs : List Value} (hvs : vs ≠ [])
    (h : (∀ v, current = some v → v.isMapping = false) ∨ ∃ v ∈ vs, v.isMapping = false) :
    mergeAllOver current vs = mergeAllOver none vs := by
  rcases h with hcurrent | hplain
  · cases vs with
    | nil => exact absurd rfl hvs
    | cons v vs =>
        have hcopy : v.mergeOver current = v.mergeOver none := by
          cases v with
          | mapping access es =>
              cases current with
              | none => rfl
              | some w =>
                  cases w with
                  | mapping => cases hcurrent _ rfl
                  | _ => rfl
          | _ => rfl
        simp only [mergeAllOver, List.foldl_cons, hcopy]
  · exact mergeAllOver_of_not_mapping hplain current none

/-- Some values come to something, and none to nothing. -/
theorem eq_nil_iff_of_equalFound {vs ws : List Value}
    (h : EqualFound (mergeAllOver none vs) (mergeAllOver none ws)) : vs = [] ↔ ws = [] := by
  rcases vs.eq_nil_or_concat' with rfl | ⟨before, v, rfl⟩ <;>
    rcases ws.eq_nil_or_concat' with rfl | ⟨others, w, rfl⟩
  · exact Iff.rfl
  · rw [mergeAllOver_concat] at h
    cases h
  · rw [mergeAllOver_concat] at h
    cases h
  · simp

/-- Values that come to equal ones from nothing and start afresh both or neither are all mappings
both or neither. -/
theorem plain_iff_of_equalFound {vs ws : List Value} (hvs : vs ≠ []) (hws : ws ≠ [])
    (hdelta : EqualFound (mergeAllOver none vs) (mergeAllOver none ws))
    (hafresh :
      [false, true].Sublist (vs.map isMapping) ↔ [false, true].Sublist (ws.map isMapping)) :
    (∃ v ∈ vs, v.isMapping = false) ↔ ∃ w ∈ ws, w.isMapping = false := by
  obtain ⟨before, v, rfl⟩ := vs.eq_nil_or_concat'.resolve_left hvs
  obtain ⟨others, w, rfl⟩ := ws.eq_nil_or_concat'.resolve_left hws
  have hlast : v.isMapping = w.isMapping := by
    rw [mergeAllOver_concat, mergeAllOver_concat] at hdelta
    cases hdelta with
    | some hequal => simpa only [isMapping_mergeOver] using isMapping_of_equals hequal
  cases hw : w.isMapping with
  | false => exact ⟨fun _ => ⟨w, by simp, hw⟩, fun _ => ⟨v, by simp, hlast.trans hw⟩⟩
  | true =>
      have hv := hlast.trans hw
      simp only [List.map_append, List.map_cons, List.map_nil, hv, hw, false_true_sublist_iff,
        List.mem_map] at hafresh
      simpa [hv, hw, or_and_right, exists_or] using hafresh

/-- Values that come to equal ones from nothing come to equal ones from what stands under a key, if
they start a mapping there afresh both or neither, and if this holds of the entries of mappings over
a mapping. -/
theorem equalFound_mergeAllOver {current : Option Value} {vs ws : List Value}
    (hcurrent : ∀ v, current = some v → v.IsProper)
    (hvs : ∀ v ∈ vs, v.isWellKeyed = true) (hws : ∀ w ∈ ws, w.isWellKeyed = true)
    (hdelta : EqualFound (mergeAllOver none vs) (mergeAllOver none ws))
    (hafresh : (∃ v, current = some v ∧ v.isMapping = true) →
      ([false, true].Sublist (vs.map isMapping) ↔ [false, true].Sublist (ws.map isMapping)))
    (hbelow : ∀ access below, current = some (.mapping access below) →
      (∀ v ∈ vs, v.isMapping = true) → (∀ w ∈ ws, w.isMapping = true) →
      (Value.object (Entries.mergeAll [] (entriesOf vs))).equals
        (.object (Entries.mergeAll [] (entriesOf ws))) = true →
      (Value.object (Entries.mergeAll (Entries.thaw below) (entriesOf vs))).equals
        (.object (Entries.mergeAll (Entries.thaw below) (entriesOf ws))) = true) :
    EqualFound (mergeAllOver current vs) (mergeAllOver current ws) := by
  have hboth := eq_nil_iff_of_equalFound hdelta
  by_cases hnil : vs = []
  · rw [hnil, hboth.mp hnil]
    exact equalFound_self hcurrent
  have hother : ws ≠ [] := fun h => hnil (hboth.mpr h)
  by_cases hmapping : ∃ v, current = some v ∧ v.isMapping = true
  · have hplain := plain_iff_of_equalFound hnil hother hdelta (hafresh hmapping)
    by_cases hmixed : ∃ v ∈ vs, v.isMapping = false
    · rwa [mergeAllOver_eq_none hnil (Or.inr hmixed),
        mergeAllOver_eq_none hother (Or.inr (hplain.mp hmixed))]
    · obtain ⟨v, rfl, hv⟩ := hmapping
      have hall : ∀ v ∈ vs, v.isMapping = true := by simpa using hmixed
      have hothers : ∀ w ∈ ws, w.isMapping = true := by
        simpa using fun h => hmixed (hplain.mpr h)
      cases v with
      | mapping access below =>
          rw [mergeAllOver_mapping hall hnil, mergeAllOver_mapping hothers hother]
          rw [mergeAllOver_of_no_mapping hall hnil hvs (by simp),
            mergeAllOver_of_no_mapping hothers hother hws (by simp)] at hdelta
          cases hdelta with
          | some hequal => exact .some (hbelow access below rfl hall hothers hequal)
      | _ => cases hv
  · have hplain : ∀ v, current = some v → v.isMapping = false := by simpa using hmapping
    rwa [mergeAllOver_eq_none hnil (Or.inl hplain), mergeAllOver_eq_none hother (Or.inl hplain)]

/-- Of mappings, what stands at a path below does not depend on their access. -/
theorem kindsAt_entriesOf {vs : List Value} (hall : ∀ v ∈ vs, v.isMapping = true)
    (htrees : ∀ v ∈ vs, v.hasReference = false) (path : List Value) :
    kindsAt (entriesOf vs) path = vs.filterMap fun v => (v.along? path).map isMapping := by
  induction vs with
  | nil => rfl
  | cons v vs ih =>
      obtain ⟨hv, hrest⟩ := List.forall_mem_cons.mp hall
      obtain ⟨htree, hothers⟩ := List.forall_mem_cons.mp htrees
      cases v with
      | mapping access es =>
          have hsame : ((Value.object es).along? path).map isMapping =
              ((Value.mapping access es).along? path).map isMapping := by
            cases path with
            | nil => rfl
            | cons key rest => rw [along?_cons htree, along?_cons htree]
          have hnext := ih hrest hothers
          rw [kindsAt] at hnext
          rw [entriesOf, kindsAt, List.filterMap_cons, List.filterMap_cons, hsame, hnext]
      | _ => cases hv

end Value

section

variable {updates others : List Entries}

theorem kindsAt_cons (h : ∀ es ∈ updates, Value.entryReference es = false) (key : Value)
    (path : List Value) :
    kindsAt updates (key :: path) =
      (updates.filterMap fun es => Entries.get? es key).filterMap fun v =>
        (v.along? path).map Value.isMapping := by
  rw [kindsAt, List.filterMap_filterMap]
  refine List.filterMap_congr fun es hes => ?_
  rw [Value.along?_cons (h es hes)]
  cases Entries.get? es key <;> rfl

theorem kindsAt_singleton (h : ∀ es ∈ updates, Value.entryReference es = false) (key : Value) :
    kindsAt updates [key] =
      (updates.filterMap fun es => Entries.get? es key).map Value.isMapping := by
  rw [kindsAt_cons h, ← List.filterMap_eq_map]
  rfl

theorem hasMappingAt_cons {es below : Entries} {access : Access} {key : Value}
    (htree : Value.entryReference es = false)
    (hkey : Entries.get? es key = some (.mapping access below))
    (hbelow : Value.entryReference below = false) {path : List Value} :
    HasMappingAt es (key :: path) ↔ HasMappingAt below path := by
  have halong : (Value.object es).along? (key :: path) =
      (Value.mapping access below).along? path := by
    rw [Value.along?_cons htree, hkey]
    rfl
  rw [HasMappingAt, HasMappingAt, halong]
  cases path with
  | nil => simp [Value.along?, Value.isMapping]
  | cons next rest => rw [Value.along?_cons hbelow, Value.along?_cons hbelow]

namespace Entries

def AreUpdates (updates : List Entries) : Prop := ∀ es ∈ updates, IsTree es ∧ IsWellKeyed es

theorem AreUpdates.keyed (h : AreUpdates updates) : ∀ es ∈ updates, IsWellKeyed es :=
  fun es hes => (h es hes).2

theorem AreUpdates.finite (h : AreUpdates updates) :
    ∀ es ∈ updates, Value.entryReference es = false := fun es hes => (h es hes).1.1

theorem AreUpdates.under (h : AreUpdates updates) (key : Value) :
    ∀ v ∈ updates.filterMap fun es => get? es key, v.IsTree ∧ v.isWellKeyed = true := by
  intro v hv
  obtain ⟨es, hes, hget⟩ := List.mem_filterMap.mp hv
  exact ⟨(h es hes).1.get? hget, (h es hes).2.get? hget⟩

theorem AreUpdates.entriesOf (h : AreUpdates updates) (key : Value) :
    AreUpdates (Value.entriesOf (updates.filterMap fun es => get? es key)) := by
  intro es hes
  obtain ⟨access, hmem⟩ := Value.mem_entriesOf hes
  obtain ⟨htree, hkeyed⟩ := h.under key _ hmem
  exact ⟨(isTree_mapping htree).2, hkeyed⟩

/-- Updates with equal deltas that start the same mappings of a status afresh lead from it to equal
ones. The induction is on the status: where it has no mapping, the deltas tell all. -/
theorem equals_mergeAll {status : Entries} (hstatus : IsProper status) (htree : IsTree status)
    (hupdates : AreUpdates updates) (hothers : AreUpdates others)
    (hdelta : (Value.object (mergeAll [] updates)).equals (.object (mergeAll [] others)) = true)
    (hafresh : StartSameAfresh status updates others) :
    (Value.object (mergeAll status updates)).equals (.object (mergeAll status others)) = true := by
  induction hsize : sizeOf status using Nat.strongRecOn
    generalizing status updates others with
  | ind n ih =>
      have hkeyed := hupdates.keyed
      have hkeyed' := hothers.keyed
      rw [equals_iff_get? (isWellKeyed_mergeAll hstatus.mappings hkeyed).isKeyed
        (isWellKeyed_mergeAll hstatus.mappings hkeyed').isKeyed]
      intro key hkey
      rw [get?_mergeAll hstatus.mappings hkeyed hkey, get?_mergeAll hstatus.mappings hkeyed' hkey]
      refine Value.equalFound_mergeAllOver (fun v hv => hstatus.get? hv)
        (fun v hv => (hupdates.under key v hv).2) (fun w hw => (hothers.under key w hw).2) ?_ ?_ ?_
      · rw [equals_iff_get? (isWellKeyed_mergeAll isProper_nil.mappings hkeyed).isKeyed
          (isWellKeyed_mergeAll isProper_nil.mappings hkeyed').isKeyed] at hdelta
        have hfound := hdelta key hkey
        rwa [get?_mergeAll isProper_nil.mappings hkeyed hkey,
          get?_mergeAll isProper_nil.mappings hkeyed' hkey, get?_nil] at hfound
      · rintro ⟨v, hv, hmapping⟩
        have hhere : HasMappingAt status [key] := by
          rw [HasMappingAt, Value.along?_cons htree.1, hv]
          exact ⟨v, rfl, hmapping⟩
        have hkinds := hafresh [key] hhere
        rwa [StartsAfresh, StartsAfresh, kindsAt_singleton hupdates.finite,
          kindsAt_singleton hothers.finite] at hkinds
      · intro access below hv hall hall' hequal
        obtain ⟨rfl, hbelow⟩ := isTree_mapping (htree.get? hv)
        have hsmaller : sizeOf below < n := by
          have hunder := sizeOf_get? hv
          rw [Value.mapping.sizeOf_spec] at hunder
          omega
        rw [hbelow.2]
        refine ih _ hsmaller (isProper_mapping (hstatus.get? hv)) hbelow (hupdates.entriesOf key)
          (hothers.entriesOf key) hequal (fun path hpath => ?_) rfl
        have hkinds := hafresh (key :: path)
          ((hasMappingAt_cons htree.1 hv hbelow.1).mpr hpath)
        rwa [StartsAfresh, StartsAfresh, kindsAt_cons hupdates.finite, kindsAt_cons hothers.finite,
          ← Value.kindsAt_entriesOf hall fun v hv => (hupdates.under key v hv).1.1,
          ← Value.kindsAt_entriesOf hall' fun w hw => (hothers.under key w hw).1.1] at hkinds

end Entries

end

end FunctionPipeline

import FunctionPipeline.Proofs.Document.FreshStarts
import FunctionPipeline.Proofs.Invocation.StatusDelta
import FunctionPipeline.Proofs.Invocation.Untouched
import FunctionPipeline.Proofs.Reconciliation.Agreement
import FunctionPipeline.Proofs.Reconciliation.SamePlans

/-!
Repeated invocations. What a fingerprint says of the status is its delta alone, what the updates
come to from nothing. So two invocations with equal fingerprints agree on everything but the status
of the composite, and on that too if both or neither update it and both start the same mappings of
it afresh.
-/

namespace FunctionPipeline

namespace Response

structure SameFingerprint (first second : Response) : Prop where
  resources : Resources.Same first.desired.resources second.desired.resources
  details : (Value.object first.connectionDetails).equals (.object second.connectionDetails) = true
  delta : (Value.object first.statusDelta).equals (.object second.statusDelta) = true

def fingerprintOf (r : Response) : Entries :=
  [(.str "failed", .bool r.failed), (.str "resources", State.resourcesValue r.desired.resources),
    (.str "connection_details", .object r.connectionDetails),
    (.str "status_delta", .object r.statusDelta)]

theorem isKeyed_fingerprintOf (r : Response) : Entries.IsKeyed r.fingerprintOf := by
  constructor
  · simp [fingerprintOf, Entries.AreKeys, Value.unhashable?]
  · simp [fingerprintOf, Entries.Distinct, Entries.keys, Value.equals, Value.scalarEquals]

theorem sameFingerprint_of_sameOutcome {first second : Response}
    (h : first.sameOutcome second = true) : SameFingerprint first second := by
  have hfound (name : String) : Value.EqualFound (Entries.field? first.fingerprintOf name)
      (Entries.field? second.fingerprintOf name) :=
    (Entries.equals_iff_get? first.isKeyed_fingerprintOf second.isKeyed_fingerprintOf _ _).mp h
      (.str name) rfl
  have hresources := hfound "resources"
  have hdetails := hfound "connection_details"
  have hdelta := hfound "status_delta"
  simp only [fingerprintOf, Entries.field?_cons, String.reduceEq, if_true, if_false,
    Option.rel_some_some] at hresources hdetails hdelta
  exact ⟨Resources.same_of_resourcesValue hresources, hdetails, hdelta⟩

end Response

namespace Builder

variable {body : Entries} {updates others : List Entries}

theorem isProper_statusIn (h : Entries.IsProper body) : Entries.IsProper (statusIn body) := by
  unfold statusIn
  split
  next access entries hfield => exact Entries.isProper_mapping (h.get? hfield)
  next => exact Entries.isProper_nil

theorem isTree_statusIn (h : Entries.IsTree body) : Entries.IsTree (statusIn body) := by
  unfold statusIn
  split
  next access entries hfield => exact (Entries.isTree_mapping (h.get? hfield)).2
  next => exact Entries.isTree_nil

/-- The status that updates lead to is merged from their writable copies. -/
theorem withUpdates_eq (hne : updates ≠ []) (htree : Entries.IsTree body) :
    withUpdates body updates =
      Entries.put body (.str "status")
        (.object (Entries.mergeAll (statusIn body) (updates.map Entries.thaw))) := by
  rw [← Entries.foldl_deepMerge (isTree_statusIn htree).2, Entries.foldl_deepMerge_map_thaw]
  cases updates with
  | nil => exact absurd rfl hne
  | cons => rfl

/-- Updates with equal deltas lead from a body to equal ones if both or neither are there and they
start the same mappings of its status afresh. -/
theorem equals_withUpdates (hbody : Entries.IsProper body) (htree : Entries.IsTree body)
    (hupdates : Entries.AreUpdates (updates.map Entries.thaw))
    (hothers : Entries.AreUpdates (others.map Entries.thaw))
    (hdelta : (Value.object (Entries.mergeAll [] (updates.map Entries.thaw))).equals
      (.object (Entries.mergeAll [] (others.map Entries.thaw))) = true)
    (hboth : updates = [] ↔ others = [])
    (hafresh : StartSameAfresh (statusIn body) (updates.map Entries.thaw)
      (others.map Entries.thaw)) :
    (Value.object (withUpdates body updates)).equals (.object (withUpdates body others)) =
      true := by
  by_cases hnil : updates = []
  · rw [hnil, hboth.mp hnil]
    exact hbody.equals_self
  · rw [withUpdates_eq hnil htree, withUpdates_eq (fun h => hnil (hboth.mpr h)) htree]
    exact hbody.equals_put "status" (Entries.equals_mergeAll (isProper_statusIn hbody)
      (isTree_statusIn htree) hupdates hothers hdelta hafresh)

/-- Equal bodies and connection details make equal composites, or none. -/
theorem compositeOf_same {other details published : Entries}
    (hbody : (Value.object body).equals (.object other) = true)
    (hdetails : (Value.object details).equals (.object published) = true) :
    Option.Rel Resource.Same (compositeOf body details) (compositeOf other published) := by
  rw [compositeOf, compositeOf, Entries.isEmpty_of_equals hbody,
    Entries.isEmpty_of_equals hdetails]
  split
  · exact .none
  · exact .some ⟨hbody, rfl, hdetails⟩

end Builder

/-- The status that a call gives, if it gives one, is a mapping that can be one. -/
def Call.GivesMapping (c : Call) : Prop :=
  ∀ given, c.statusGiven? = some given → Entries.IsWellKeyed given

def State.HasProperComposite (s : State) : Prop := ∀ r, s.composite = some r → r.IsProper

theorem State.HasProperComposite.body {s : State} (h : s.HasProperComposite) :
    Entries.IsProper (Builder.seedBody s) ∧ Entries.IsTree (Builder.seedBody s) := by
  rw [Builder.seedBody]
  cases hcomposite : s.composite with
  | none => exact ⟨Entries.isProper_nil, Entries.isTree_nil⟩
  | some r => exact ⟨(h r hcomposite).body, (h r hcomposite).tree.body⟩

namespace Plan

/-- A planned composite differs from the observed one in its status only. -/
theorem erase_body_withNames (observed : State) (response : Response)
    (create update delete : List Value) :
    Entries.erase (withNames observed response create update delete).body (.str "status") =
      Entries.erase (Builder.seedBody observed) (.str "status") := by
  rw [body, withNames, compositeFor]
  split
  · rfl
  · rw [← Builder.body_getD]
    exact Entries.erase_put_str _ _ _

/-- Responses whose updates lead the observed body to equal ones, and of which both or neither
record one, are planned equal composites. -/
theorem compositeFor_same {observed : State} (h : observed.HasProperComposite)
    {first second : Response} {updates others : List Entries}
    (hfirst : first.statusUpdates = updates.map Entries.thaw)
    (hsecond : second.statusUpdates = others.map Entries.thaw)
    (hbody : (Value.object (Builder.withUpdates (Builder.seedBody observed) updates)).equals
      (.object (Builder.withUpdates (Builder.seedBody observed) others)) = true)
    (hboth : updates = [] ↔ others = []) :
    Option.Rel Resource.Same (compositeFor observed first) (compositeFor observed second) := by
  by_cases hnil : updates = []
  · rw [compositeFor, compositeFor, hfirst, hsecond, hnil, hboth.mp hnil]
    cases hcomposite : observed.composite with
    | none => exact .none
    | some r => exact .some (h r hcomposite).same
  · have hother : others ≠ [] := fun hnone => hnil (hboth.mpr hnone)
    have hempty : first.statusUpdates.isEmpty = false := by simpa [hfirst] using hnil
    have hempty' : second.statusUpdates.isEmpty = false := by simpa [hsecond] using hother
    rw [compositeFor, compositeFor, hempty, hempty']
    have hdetails : Entries.IsProper (observed.composite.getD { body := [] }).details := by
      cases hcomposite : observed.composite with
      | none => exact Entries.isProper_nil
      | some r => exact (h r hcomposite).details
    refine .some ⟨?_, rfl, hdetails.equals_self⟩
    rw [body_updated hfirst hnil, body_updated hsecond hother]
    exact hbody

end Plan

namespace Invocation

open Builder

def statusesOf (calls : List Call) : List Entries :=
  (calls.filter Call.isAccepted).filterMap Call.statusGiven?

theorem areUpdates_statusesOf {calls : List Call} (h : ∀ c ∈ calls, c.GivesMapping) :
    Entries.AreUpdates ((statusesOf calls).map Entries.thaw) := by
  intro es hes
  obtain ⟨given, hgiven, rfl⟩ := List.mem_map.mp hes
  obtain ⟨c, hc, hstatus⟩ := List.mem_filterMap.mp hgiven
  obtain ⟨hmem, haccepted⟩ := List.mem_filter.mp hc
  have hkeyed := h c hmem given hstatus
  obtain ⟨change, hchange⟩ := Call.exists_change haccepted
  rcases change_cases hchange with
    ⟨_, _, _, rfl, -⟩ | ⟨_, _, rfl, -⟩ | ⟨status, found, rfl, hfound, hfinite, -⟩
  · cases hstatus
  · cases hstatus
  · obtain rfl : found = given := Option.some.inj (hfound.symm.trans hstatus)
    exact ⟨Entries.isTree_thaw hfinite,
      (Value.entriesWellKeyed_withAccessEntries .writable found).trans hkeyed⟩

/-- Responses that agree but for the status of the composite, and whose plans do. -/
structure AgreeBesideStatus (observed : State) (first second : Response) : Prop where
  resources : Resources.Same first.desired.resources second.desired.resources
  body :
    Entries.erase (seedBody first.desired) (.str "status") =
      Entries.erase (seedBody second.desired) (.str "status")
  details :
    (Value.object (seedDetails first.desired)).equals (.object (seedDetails second.desired)) = true
  plans :
    Plan.Outcome Plan.SameBesideStatus (Plan.ofResponse observed first)
      (Plan.ofResponse observed second)

/-- Two invocations of one request that return and have the same outcome agree but for the status of
the composite. If both or neither update it, their desired states are equal if they start the same
mappings of the desired status afresh, and their plans if they start those of the observed one. -/
theorem same_outcome_agree {body other : Body} {request : Request} {calls others : List Call}
    {a after b behind : Activity}
    (h : body.Returns (ofState request.desired) calls a after)
    (hother : other.Returns (ofState request.desired) others b behind)
    (hcalls : ∀ c ∈ calls, c.GivesMapping) (hothers : ∀ c ∈ others, c.GivesMapping)
    (hdesired : request.desired.HasProperComposite)
    (hobserved : request.observed.HasProperComposite) (ttl : Int) :
    ∃ first second, (invoke body request ttl).runOn a = (.ok first, after) ∧
      (invoke other request ttl).runOn b = (.ok second, behind) ∧
      (first.sameOutcome second = true →
        AgreeBesideStatus request.observed first second ∧
        ((first.statusUpdates = [] ↔ second.statusUpdates = []) →
          (StartSameAfresh (statusIn (seedBody request.desired)) first.statusUpdates
              second.statusUpdates →
            first.desired.Same second.desired) ∧
          (StartSameAfresh (statusIn (seedBody request.observed)) first.statusUpdates
              second.statusUpdates →
            Plan.Outcome Plan.Same (Plan.ofResponse request.observed first)
              (Plan.ofResponse request.observed second)))) := by
  refine ⟨returned request ttl calls, returned request ttl others, invoke_of_returns h ttl,
    invoke_of_returns hother ttl, fun hsame => ?_⟩
  have hfirst := normalForm_returned request ttl calls
  have hsecond := normalForm_returned request ttl others
  obtain ⟨hresources, hdetails, hdelta⟩ := Response.sameFingerprint_of_sameOutcome hsame
  have hplans (create update delete : List Value) : Plan.SameBesideStatus
      (Plan.withNames request.observed (returned request ttl calls) create update delete)
      (Plan.withNames request.observed (returned request ttl others) create update delete) := by
    refine ⟨rfl, rfl, rfl, hresources, hdetails, rfl, ?_⟩
    rw [Plan.erase_body_withNames, Plan.erase_body_withNames]
  refine ⟨⟨hresources, ?_, hdetails,
    Plan.outcome_of_same hfirst hsecond rfl rfl hresources hplans⟩, fun hboth => ?_⟩
  · rw [seedBody_of_compositeOf hfirst.composite, seedBody_of_compositeOf hsecond.composite,
      erase_withUpdates, erase_withUpdates]
  rw [Response.statusDelta_eq, Response.statusDelta_eq, hfirst.updates, hsecond.updates] at hdelta
  rw [hfirst.updates, hsecond.updates] at hboth ⊢
  rw [List.map_eq_nil_iff, List.map_eq_nil_iff] at hboth
  have hgiven := areUpdates_statusesOf hcalls
  have hgiven' := areUpdates_statusesOf hothers
  constructor
  · intro hafresh
    obtain ⟨hproper, htree⟩ := hdesired.body
    have hbody := equals_withUpdates hproper htree hgiven hgiven' hdelta hboth hafresh
    refine ⟨?_, hresources⟩
    rw [hfirst.composite, hsecond.composite]
    refine compositeOf_same hbody ?_
    rwa [← seedDetails_of_compositeOf hfirst.composite,
      ← seedDetails_of_compositeOf hsecond.composite]
  · intro hafresh
    obtain ⟨hproper, htree⟩ := hobserved.body
    have hbody := equals_withUpdates hproper htree hgiven hgiven' hdelta hboth hafresh
    have hcomposite := Plan.compositeFor_same hobserved hfirst.updates hsecond.updates hbody hboth
    exact Plan.outcome_of_same hfirst hsecond rfl rfl hresources fun create update delete =>
      ⟨hplans create update delete, hcomposite⟩

def zonedRequest : Request := { observed := Plan.zonedState, desired := Plan.zonedState }

/-- Calls that write two resources. -/
def storedResources : List Call :=
  ["store", "bucket"].map fun name => .setResource (.str name)
    (.object [(.str "apiVersion", .str "v1"), (.str "kind", .str name)])

/-- Calls that write them after the zone is started afresh. -/
def storedLast : List Call := Plan.rezoningCalls ++ storedResources

/-- Calls that write them before that, in the other order. -/
def storedFirst : List Call := storedResources.reverse ++ Plan.rezoningCalls

theorem statusesOf_stored :
    statusesOf storedLast = statusesOf Plan.rezoningCalls ∧
      statusesOf storedFirst = statusesOf Plan.rezoningCalls := by
  have hnone : ∀ c ∈ storedResources, c.statusGiven? = none := by
    simp [storedResources, Call.statusGiven?]
  have hstored : statusesOf storedResources = [] :=
    List.filterMap_eq_nil_iff.mpr fun c hc => hnone c (List.mem_filter.mp hc).1
  simp only [statusesOf] at hstored
  simp [statusesOf, storedLast, storedFirst, hstored]

theorem givesMapping_stored :
    (∀ c ∈ storedLast, c.GivesMapping) ∧ ∀ c ∈ storedFirst, c.GivesMapping := by
  have hstored : ∀ c ∈ storedResources, c.GivesMapping := by
    simp [storedResources, Call.GivesMapping, Call.statusGiven?]
  have hrezoning : ∀ c ∈ Plan.rezoningCalls, c.GivesMapping := by
    simp only [Plan.rezoningCalls, List.forall_mem_cons]
    refine ⟨?_, ?_, ?_, by simp⟩
    · rintro given ⟨⟩
      rfl
    · rintro given ⟨⟩
    · rintro given ⟨⟩
      rfl
  exact ⟨fun c hc => (List.mem_append.mp hc).elim (hrezoning c) (hstored c),
    fun c hc => (List.mem_append.mp hc).elim (fun h => hstored c (List.mem_reverse.mp h))
      (hrezoning c)⟩

theorem same_outcome_agree_stored :
    Body.Returns (fun b => pure (b.after storedLast)) (ofState zonedRequest.desired) storedLast
        {} {} ∧
      Body.Returns (fun b => pure (b.after storedFirst)) (ofState zonedRequest.desired) storedFirst
        {} {} ∧
      (∀ c ∈ storedLast, c.GivesMapping) ∧ (∀ c ∈ storedFirst, c.GivesMapping) ∧
      zonedRequest.desired.HasProperComposite ∧ zonedRequest.observed.HasProperComposite ∧
      ∃ first second,
        (invoke (fun b => pure (b.after storedLast)) zonedRequest 60).runOn {} = (.ok first, {}) ∧
        (invoke (fun b => pure (b.after storedFirst)) zonedRequest 60).runOn {} = (.ok second, {}) ∧
        first.sameOutcome second = true ∧ (first.statusUpdates = [] ↔ second.statusUpdates = []) ∧
        StartSameAfresh (statusIn (seedBody zonedRequest.desired)) first.statusUpdates
          second.statusUpdates ∧
        first.desired.Same second.desired ∧
        Plan.Outcome Plan.Same (Plan.ofResponse zonedRequest.observed first)
          (Plan.ofResponse zonedRequest.observed second) := by
  have hlast : Body.Returns (fun b => pure (b.after storedLast)) (ofState zonedRequest.desired)
      storedLast {} {} := rfl
  have hearly : Body.Returns (fun b => pure (b.after storedFirst)) (ofState zonedRequest.desired)
      storedFirst {} {} := rfl
  obtain ⟨hcalls, hothers⟩ := givesMapping_stored
  have hproper : Plan.zonedState.HasProperComposite := by
    rintro r ⟨⟩
    exact ⟨⟨⟨rfl, rfl⟩, Entries.isTree_nil⟩, ⟨rfl, rfl⟩, Entries.isProper_nil⟩
  obtain ⟨first, second, hfirst, hsecond, hagree⟩ :=
    same_outcome_agree hlast hearly hcalls hothers hproper hproper 60
  obtain rfl : returned zonedRequest 60 storedLast = first :=
    Except.ok.inj (Prod.mk.inj ((invoke_of_returns hlast 60).symm.trans hfirst)).1
  obtain rfl : returned zonedRequest 60 storedFirst = second :=
    Except.ok.inj (Prod.mk.inj ((invoke_of_returns hearly 60).symm.trans hsecond)).1
  have hsame : (returned zonedRequest 60 storedLast).sameOutcome
      (returned zonedRequest 60 storedFirst) = true := by decide +kernel
  have hupdates : (returned zonedRequest 60 storedLast).statusUpdates =
      (returned zonedRequest 60 storedFirst).statusUpdates := by
    rw [(normalForm_returned ..).updates, (normalForm_returned ..).updates]
    exact congrArg (List.map Entries.thaw) (statusesOf_stored.1.trans statusesOf_stored.2.symm)
  have hafresh : StartSameAfresh (statusIn (seedBody zonedRequest.desired))
      (returned zonedRequest 60 storedLast).statusUpdates
      (returned zonedRequest 60 storedFirst).statusUpdates := by
    rw [hupdates]
    exact .refl _ _
  obtain ⟨hdesired, hplan⟩ := (hagree hsame).2 (by rw [hupdates])
  exact ⟨hlast, hearly, hcalls, hothers, hproper, hproper, _, _, hfirst, hsecond, hsame,
    by rw [hupdates], hafresh, hdesired hafresh, hplan hafresh⟩

/-- What is left of the calls that start the zone afresh when their updates are merged into one. -/
def zonedAnew : List Call :=
  [.updateStatus (.object [(.str "zone", .object [(.str "new", .int 2)])])]

/-- Equal fingerprints alone do not make equal states: a mapping that is started afresh is not told
from one that is merged, and no update not from an empty one. -/
theorem same_outcome_not_enough :
    (∃ first second,
      (invoke (fun b => pure (b.after zonedAnew)) zonedRequest 60).runOn {} = (.ok first, {}) ∧
      (invoke (fun b => pure (b.after Plan.rezoningCalls)) zonedRequest 60).runOn {} =
        (.ok second, {}) ∧
      first.sameOutcome second = true ∧ ¬ first.desired.Same second.desired ∧
      ¬ Plan.Outcome Plan.Same (Plan.ofResponse zonedRequest.observed first)
        (Plan.ofResponse zonedRequest.observed second)) ∧
    ∃ first second,
      (invoke (fun b => pure (b.after [.updateStatus (.object [])])) {} 60).runOn {} =
        (.ok first, {}) ∧
      (invoke pure {} 60).runOn {} = (.ok second, {}) ∧
      first.sameOutcome second = true ∧ ¬ first.desired.Same second.desired ∧
      ¬ Plan.Outcome Plan.Same (Plan.ofResponse {} first) (Plan.ofResponse {} second) := by
  refine ⟨⟨returned zonedRequest 60 zonedAnew, returned zonedRequest 60 Plan.rezoningCalls,
    rfl, rfl, by decide +kernel, fun h => ?_, fun h => ?_⟩,
    returned {} 60 [.updateStatus (.object [])], returned {} 60 [],
    rfl, rfl, by decide +kernel, fun h => ?_, fun h => ?_⟩
  · exact absurd (Resource.equals_body_of_rel h.composite) (by decide +kernel)
  · exact absurd h.equals_plannedBody (by decide +kernel)
  · exact absurd (Resource.equals_body_of_rel h.composite) (by decide +kernel)
  · exact absurd h.equals_plannedBody (by decide +kernel)

end Invocation

end FunctionPipeline

import FunctionPipeline.Proofs.Invocation.Bodies

/-!
What a step leaves alone. An invocation takes the desired state apart and puts it together again,
and everything that no accepted call of the body writes comes through, but for the readiness of a
composite: it is forgotten on the way, while a failed invocation keeps it. A composite with nothing
in it counts as none.
-/

namespace FunctionPipeline

/-- A write under a text key is not seen beside that key. -/
theorem Entries.erase_put_str {α : Type} (es : List (Value × α)) (name : String) (v : α) :
    erase (put es (.str name) v) (.str name) = erase es (.str name) := by
  induction es with
  | nil => simp [put, erase, Value.str_equals_self]
  | cons e es ih =>
      obtain ⟨k, w⟩ := e
      by_cases hk : (Value.str name).equals k = true
      · simp [put, erase, hk]
      · simpa [put, erase, hk] using ih

theorem Call.lastGiven?_eq_none {α : Type} {given? : Call → Option α} {calls : List Call}
    (h : ∀ c ∈ calls, given? c = none) : lastGiven? given? calls = none := by
  induction calls with
  | nil => rfl
  | cons c rest ih =>
      obtain ⟨hc, hrest⟩ := List.forall_mem_cons.mp h
      rw [lastGiven?, ih hrest, hc]
      rfl

namespace Builder

def seedReadiness (seed : State) : Ready := (seed.composite.map Resource.ready).getD .unspecified

/-- What a built state keeps of the state that the builder started from, beside what the calls
write: each resource under another name, with its readiness and in its place; the composite's body
but for the status; its connection details if none were given; its status if no update was. A
readiness of the composite is kept only if there is none to keep. -/
structure KeepsRest (seed : State) (calls : List Call) (built : State) : Prop where
  resources (key : Value)
      (hkey : ∀ c ∈ calls, ∀ name, c.resourceName? = some name → .str name ≠ key) :
    Entries.get? built.resources key = Entries.get? seed.resources key
  order : Entries.keys seed.resources <+: Entries.keys built.resources
  body :
    Entries.erase (seedBody built) (.str "status") = Entries.erase (seedBody seed) (.str "status")
  details (hcalls : ∀ c ∈ calls, c.detailsGiven? = none) : seedDetails built = seedDetails seed
  status (hcalls : ∀ c ∈ calls, c.statusGiven? = none) : seedBody built = seedBody seed
  readiness (hseed : seedReadiness seed = .unspecified) : seedReadiness built = seedReadiness seed

/-- A state whose composite, if there is one, has no readiness and holds something. -/
def HasPlainComposite (s : State) : Prop :=
  ∀ r, s.composite = some r → r.ready = .unspecified ∧ (r.body ≠ [] ∨ r.details ≠ [])

theorem seedBody_of_compositeOf {s : State} {body details : Entries}
    (h : s.composite = compositeOf body details) : seedBody s = body := by
  rw [seedBody, h, compositeOf]
  cases body <;> cases details <;> rfl

theorem seedDetails_of_compositeOf {s : State} {body details : Entries}
    (h : s.composite = compositeOf body details) : seedDetails s = details := by
  rw [seedDetails, h, compositeOf]
  cases body <;> cases details <;> rfl

theorem seedReadiness_of_compositeOf {s : State} {body details : Entries}
    (h : s.composite = compositeOf body details) : seedReadiness s = .unspecified := by
  rw [seedReadiness, h, compositeOf]
  cases body <;> cases details <;> rfl

theorem erase_withUpdates (body : Entries) (updates : List Entries) :
    Entries.erase (withUpdates body updates) (.str "status") =
      Entries.erase body (.str "status") := by
  cases updates with
  | nil => rfl
  | cons => exact Entries.erase_put_str _ _ _

private theorem bodyUnder?_eq_none {c : Call} {name : String}
    (h : ∀ other, c.resourceName? = some other → Value.str other ≠ .str name) :
    c.bodyUnder? name = none := by
  cases c with
  | setResource key body =>
      cases key with
      | str other => exact if_neg fun heq : other = name => h other rfl (congrArg Value.str heq)
      | _ => rfl
  | _ => rfl

theorem keepsRest_of_normalForm {seed : State} {calls : List Call} {r : Response}
    (h : NormalForm seed calls r) : KeepsRest seed calls r.desired where
  resources key hkey := by
    by_cases htext : ∃ name, key = .str name
    · obtain ⟨name, rfl⟩ := htext
      have hnone : Call.lastGiven? (Call.bodyUnder? name) calls = none :=
        Call.lastGiven?_eq_none fun c hc => bodyUnder?_eq_none (hkey c hc)
      have hwritten := h.written name
      rwa [hnone] at hwritten
    · exact h.kept key fun name heq => htext ⟨name, heq⟩
  order := ⟨_, h.order.symm⟩
  body := by rw [seedBody_of_compositeOf h.composite, erase_withUpdates]
  details hcalls := by
    rw [seedDetails_of_compositeOf h.composite, Call.lastGiven?_eq_none hcalls]
    rfl
  status hcalls := by
    rw [seedBody_of_compositeOf h.composite, List.filterMap_eq_nil_iff.mpr hcalls]
    rfl
  readiness hseed := (seedReadiness_of_compositeOf h.composite).trans hseed.symm

/-- A builder that nothing was done to has the state it started from. -/
theorem desired_ofState {seed : State} (h : HasPlainComposite seed) :
    (ofState seed).desired = seed := by
  obtain ⟨composite, resources⟩ := seed
  cases composite with
  | none => rfl
  | some r =>
      obtain ⟨body, ready, details⟩ := r
      obtain ⟨hready, hholds⟩ := h _ rfl
      obtain rfl : ready = .unspecified := hready
      have hthere : (body.isEmpty && details.isEmpty) = false := by
        rw [Bool.and_eq_false_iff, List.isEmpty_eq_false_iff, List.isEmpty_eq_false_iff]
        exact hholds
      simp [ofState, desired, compositeResource, hthere]

/-- Calls of which none is accepted do nothing. -/
theorem after_of_refused (b : Builder) {calls : List Call}
    (h : ∀ c ∈ calls, c.isAccepted = false) : b.after calls = b := by
  have hnone : calls.filter Call.isAccepted = [] :=
    List.filter_eq_nil_iff.mpr fun c hc => by simp [h c hc]
  rw [after_eq_changes, ← changesOf_filter_accepted, hnone]
  rfl

end Builder

namespace Invocation

open Builder

/-- A step only overwrites what it sets. The invocation of a body that returns answers with a
desired state that keeps all that no accepted call wrote. Without an accepted call it is the
request's, as in a failure, if the composite has no readiness and holds something. -/
theorem returned_keeps_rest {body : Body} {request : Request} {calls : List Call}
    {a after : Activity} (h : body.Returns (ofState request.desired) calls a after) (ttl : Int) :
    ∃ response, (invoke body request ttl).runOn a = (.ok response, after) ∧
      KeepsRest request.desired (calls.filter Call.isAccepted) response.desired ∧
      ((∀ c ∈ calls, c.isAccepted = false) → HasPlainComposite request.desired →
        response.desired = request.desired ∧
          ∀ message, response.desired = (Response.fatal request message ttl).desired) := by
  refine ⟨returned request ttl calls, invoke_of_returns h ttl,
    keepsRest_of_normalForm (normalForm_returned request ttl calls), ?_⟩
  intro hrefused hplain
  have hdesired : (returned request ttl calls).desired = request.desired := by
    rw [returned, after_of_refused _ hrefused]
    exact desired_ofState hplain
  exact ⟨hdesired, fun _ => hdesired⟩

def seededRequest : Request :=
  { desired := ⟨some { body := [(.str "kind", .str "XR"), (.str "status", .object [])] },
      [(.str "bucket", { body := [(.str "kind", .str "Bucket")], ready := .yes })]⟩ }

/-- Calls of which the first is accepted and the second refused. -/
def zoneCalls : List Call :=
  [.updateStatus (.object [(.str "zone", .str "west")]), .setDetails (.list [])]

theorem returned_keeps_rest_zone :
    Body.Returns (fun b => pure (b.after zoneCalls)) (ofState seededRequest.desired) zoneCalls
        {} {} ∧
      (∃ response, (invoke (fun b => pure (b.after zoneCalls)) seededRequest 60).runOn {} =
          (.ok response, {}) ∧
        KeepsRest seededRequest.desired (zoneCalls.filter Call.isAccepted) response.desired) ∧
      Body.Returns pure (ofState seededRequest.desired) [] {} {} ∧
      HasPlainComposite seededRequest.desired ∧
      ∃ response, (invoke pure seededRequest 60).runOn {} = (.ok response, {}) ∧
        response.desired = seededRequest.desired := by
  have hreturns : Body.Returns (fun b => pure (b.after zoneCalls)) (ofState seededRequest.desired)
      zoneCalls {} {} := rfl
  have hquiet : Body.Returns pure (ofState seededRequest.desired) [] {} {} := rfl
  have hplain : HasPlainComposite seededRequest.desired := by
    rintro r ⟨⟩
    simp
  obtain ⟨response, hresponse, hkeeps, -⟩ := returned_keeps_rest hreturns 60
  obtain ⟨same, hsame, -, hkept⟩ := returned_keeps_rest hquiet 60
  exact ⟨hreturns, ⟨response, hresponse, hkeeps⟩, hquiet, hplain, same, hsame,
    (hkept (by simp) hplain).1⟩

def markedRequest : Request :=
  { desired := ⟨some { body := [(.str "kind", .str "XR")], ready := .yes }, []⟩ }

/-- Without a call the readiness of a composite is lost, though a failure would keep it. -/
theorem composite_readiness_lost :
    ∃ response, (invoke pure markedRequest 60).runOn {} = (.ok response, {}) ∧
      markedRequest.desired.composite.map Resource.ready = some .yes ∧
      response.desired.composite.map Resource.ready = some .unspecified ∧
      ∀ message, (Response.fatal markedRequest message 60).desired = markedRequest.desired :=
  ⟨_, rfl, rfl, rfl, fun _ => rfl⟩

end Invocation

end FunctionPipeline

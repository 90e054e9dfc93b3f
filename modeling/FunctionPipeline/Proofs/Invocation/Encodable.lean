import FunctionPipeline.Proofs.Invocation.AllOrNothing
import FunctionPipeline.Proofs.Json.Reading
import FunctionPipeline.Proofs.Tool.Runs
import FunctionPipeline.Yaml.Document

/-!
Every response can be written. What a request of JSON values is answered with is made of its parts
and of what the function's reply records, by copies, writes under names and merges. So it is a JSON
value again, and the encoder's check passes it: `run_response_encodable`. The invariant is carried
by the builder, one lemma for a call and one for a run of calls.
-/

namespace FunctionPipeline

open Operation

/-! Documents of JSON values. -/

structure Resource.IsJson (r : Resource) : Prop where
  body : Entries.IsJson r.body
  details : Entries.IsJson r.details

def Resources.AreJson (resources : Resources) : Prop :=
  ∀ e ∈ resources, (∃ name, e.1 = .str name) ∧ e.2.IsJson

structure State.IsJson (s : State) : Prop where
  composite : ∀ r, s.composite = some r → r.IsJson
  resources : s.resources.AreJson

theorem Resource.isJson_toValue {r : Resource} : r.toValue.isJson = true ↔ r.IsJson := by
  have hready : Entries.IsJson (readyPart r.ready) := by cases r.ready <;> rfl
  have hdetails : Entries.IsJson (detailsPart r.details) ↔ Entries.IsJson r.details := by
    cases r.details with
    | nil => exact Iff.rfl
    | cons => exact Entries.isJson_singleton
  rw [toValue, Value.isJson_mapping, Entries.isJson_cons, Entries.isJson_append, hdetails]
  constructor
  · rintro ⟨-, hbody, -, hdetails⟩
    exact ⟨hbody, hdetails⟩
  · rintro ⟨hbody, hdetails⟩
    exact ⟨⟨_, rfl⟩, hbody, hready, hdetails⟩

theorem Resources.isJson_resourcesValue {resources : Resources} :
    (State.resourcesValue resources).isJson = true ↔ resources.AreJson := by
  rw [State.resourcesValue, Value.isJson_mapping, Entries.isJson_iff, List.forall_mem_map]
  simp only [Resource.isJson_toValue, AreJson]

theorem State.isJson_toValue {s : State} : s.toValue.isJson = true ↔ s.IsJson := by
  have hcomposite : Entries.IsJson (compositePart s.composite) ↔
      ∀ r, s.composite = some r → r.IsJson := by
    cases s.composite with
    | none => simp [compositePart, Entries.isJson_nil]
    | some r => simp [compositePart, Entries.isJson_singleton, Resource.isJson_toValue]
  have hresources : Entries.IsJson (resourcesPart s.resources) ↔ s.resources.AreJson := by
    cases s.resources with
    | nil => simp [resourcesPart, Entries.isJson_nil, Resources.AreJson]
    | cons => exact Entries.isJson_singleton.trans Resources.isJson_resourcesValue
  rw [toValue, Value.isJson_mapping, Entries.isJson_append, hcomposite, hresources]
  exact ⟨fun h => ⟨h.1, h.2⟩, fun h => ⟨h.composite, h.resources⟩⟩

/-- A response is a JSON value if its tag and its desired state are: the rest is text. -/
theorem Response.isJson_toValue {r : Response} (htag : r.tag.isJson = true)
    (hdesired : r.desired.IsJson) : r.toValue.isJson = true := by
  have hmeta :
      (Value.object [(.str "tag", r.tag), (.str "ttl", .str s!"{r.ttl}s")]).isJson = true :=
    Entries.isJson_cons.mpr ⟨⟨_, rfl⟩, htag, Entries.isJson_singleton.mpr rfl⟩
  have hresults : Entries.IsJson (resultsPart r.results) := by
    unfold resultsPart
    split
    · exact Entries.isJson_nil
    · refine Entries.isJson_singleton.mpr (Value.allJson_iff.mpr ?_)
      simp only [List.forall_mem_map]
      exact fun result _ => rfl
  rw [toValue, Value.isJson_mapping, Entries.isJson_append]
  refine ⟨Entries.isJson_cons.mpr ⟨⟨_, rfl⟩, hmeta, ?_⟩, hresults⟩
  exact Entries.isJson_singleton.mpr (State.isJson_toValue.mpr hdesired)

/-- What a response is made of in a request whose document is a JSON value. -/
theorem Request.isJson_parts {r : Request} (h : r.toValue.isJson = true) :
    r.tag.isJson = true ∧ Entries.IsJson r.input ∧ r.desired.IsJson := by
  rw [toValue, Value.isJson_mapping] at h
  simp only [Entries.isJson_cons, Value.isJson_mapping, State.isJson_toValue] at h
  obtain ⟨-, ⟨-, htag, -⟩, -, hinput, -, -, -, hdesired, -⟩ := h
  exact ⟨htag, hinput, hdesired⟩

namespace Builder

structure IsJson (b : Builder) : Prop where
  composite : Entries.IsJson b.composite
  details : Entries.IsJson b.details
  composed : Resources.AreJson b.composed

theorem isJson_ofState {seed : State} (h : seed.IsJson) : (ofState seed).IsJson := by
  unfold ofState
  cases hcomposite : seed.composite with
  | none => exact ⟨Entries.isJson_nil, Entries.isJson_nil, h.resources⟩
  | some r =>
      obtain ⟨hbody, hdetails⟩ := h.composite r hcomposite
      exact ⟨hbody, hdetails, h.resources⟩

/-- The desired state that a builder of JSON values builds is one of them. -/
theorem IsJson.desired {b : Builder} (h : b.IsJson) : b.desired.IsJson := by
  refine ⟨fun r hr => ?_, h.composed⟩
  simp only [Builder.desired, compositeResource] at hr
  split at hr
  · cases hr
  · cases hr
    exact ⟨h.composite, h.details⟩

theorem isJson_checkedDetails {given : Entries} (h : checkDetails given = .ok ()) :
    Entries.IsJson given := by
  fun_induction checkDetails given with
  | case1 => exact Entries.isJson_nil
  | case2 key text rest ih => exact Entries.isJson_cons.mpr ⟨⟨key, rfl⟩, rfl, ih h⟩
  | case3 => cases h

/-- Taking the annotation for readiness out keeps a body of JSON values one. -/
theorem isJson_withoutReadiness {body : Entries} (h : Entries.IsJson body) :
    Entries.IsJson (withoutReadiness body).1 := by
  unfold withoutReadiness
  split
  next access metadata hmetadata =>
    have hbelow : Entries.IsJson metadata := h.get? hmetadata
    split
    next below annotations hannotations =>
      have hmarks : Entries.IsJson annotations := hbelow.get? hannotations
      split
      · exact h.put _ (hbelow.put _ (hmarks.erase _))
      · exact h
    next => exact h
  next => exact h

theorem isJson_status {b : Builder} (h : b.IsJson) : Entries.IsJson b.status := by
  unfold status
  split
  next access entries hfield => exact h.composite.get? hfield
  next => exact Entries.isJson_nil

end Builder

def Call.IsJson : Call → Prop
  | .setResource _ body => body.isJson = true
  | .setDetails details => details.isJson = true
  | .updateStatus status => status.isJson = true

namespace Builder

/-- A call keeps a builder of JSON values. -/
theorem IsJson.apply {b after : Builder} (h : b.IsJson) {c : Call} (hc : c.IsJson)
    (happlied : b.apply c = .ok after) : after.IsJson := by
  rw [apply_eq_change] at happlied
  cases hchange : c.change with
  | error failure => rw [hchange] at happlied; cases happlied
  | ok change =>
      rw [hchange] at happlied
      cases happlied
      rcases change_cases hchange with
        ⟨name, body, given, rfl, hgiven, hreference, rfl⟩ |
        ⟨details, given, rfl, hgiven, hcheck, rfl⟩ | ⟨status, given, rfl, hgiven, hreference, rfl⟩
      · have hstored := isJson_withoutReadiness (Value.isJson_entries? hc hgiven).thaw
        rw [withoutReadiness_thaw hreference] at hstored
        exact ⟨h.composite, h.details, Entries.forall_mem_put_str h.composed
          ⟨⟨name, rfl⟩, hstored, Entries.isJson_nil⟩⟩
      · exact ⟨h.composite, isJson_checkedDetails hcheck, h.composed⟩
      · have hmerged := (isJson_status h).deepMerge (Value.isJson_entries? hc hgiven).thaw
        exact ⟨h.composite.put _ hmerged, h.details, h.composed⟩

/-- A run of calls keeps a builder of JSON values. -/
theorem IsJson.applyAll {b after : Builder} (h : b.IsJson) {calls : List Call}
    (hcalls : ∀ c ∈ calls, c.IsJson) (happlied : b.applyAll calls = .ok after) : after.IsJson := by
  induction calls generalizing b with
  | nil =>
      cases happlied
      exact h
  | cons c rest ih =>
      obtain ⟨hc, hrest⟩ := List.forall_mem_cons.mp hcalls
      obtain ⟨next, hnext, hall⟩ := ok_of_bind happlied
      exact ih (h.apply hc hnext) hrest hall

end Builder

/-! What is recorded in replies. -/

/-- Whether the numbers in the JSON text that a run writes are finite. -/
def Reply.hasFiniteNumbers : Reply → Bool
  | .finished _ output _ =>
      match Json.read output.toList with
      | .ok v => v.hasFiniteNumbers
      | .error _ => true
  | _ => true

theorem Reply.isJson_members {reply : Reply} (hfinite : reply.hasFiniteNumbers = true)
    {members : Entries} (h : reply.members? = some members) : Entries.IsJson members := by
  obtain ⟨output, report, access, rfl, hread⟩ := eq_finished h
  simp only [hasFiniteNumbers, hread] at hfinite
  exact (Json.isValue_of_read hread).isJson hfinite

namespace Engine

theorem isJson_of_callParts {document : Value} (h : document.isJson = true)
    {operation arguments : Value} (hparts : callParts document = .ok (operation, arguments)) :
    arguments.isJson = true := by
  obtain ⟨op, -, hrest⟩ := ok_of_bind hparts
  obtain ⟨found, hfound, hend⟩ := ok_of_bind hrest
  obtain ⟨key, -, hend⟩ := ok_of_bind hend
  cases hend
  have hgiven := Value.isJson_lookUp h hfound
  split
  · exact hgiven
  · rfl

theorem isJson_of_callOf? {name : String} {arguments : List Value}
    (h : ∀ x ∈ arguments, x.isJson = true) {c : Call} (hc : callOf? name arguments = some c) :
    c.IsJson := by
  unfold callOf? at hc
  split at hc
  · cases hc
    exact h _ (by simp)
  · cases hc
    exact h _ (by simp)
  · cases hc
    exact h _ (by simp)
  · cases hc

/-- A call that is recorded by a JSON value has a JSON value as its argument. -/
theorem isJson_of_callIn {document : Value} (h : document.isJson = true) {c : Call}
    (hc : callIn document = .ok c) : c.IsJson := by
  unfold callIn at hc
  split at hc
  next => cases hc
  next operation arguments hparts =>
    have harguments : ∀ x ∈ (arguments.elements.toOption).getD [], x.isJson = true := by
      cases helements : arguments.elements with
      | error cause => exact fun x hx => absurd hx List.not_mem_nil
      | ok items => exact Value.isJson_elements (isJson_of_callParts h hparts) helements
    split at hc
    next => cases hc
    next name arity harity =>
      split at hc
      next => cases hc
      next given hcount =>
        split at hc
        next call hcall =>
          cases hc
          exact isJson_of_callOf? harguments hcall
        next => cases hc

/-- A reply with finite numbers keeps a builder of JSON values one when it is replayed. -/
theorem Replays.isJson {e : Engine} {b after : Builder} {reply : Reply}
    (h : e.Replays b reply after) (hfinite : reply.hasFiniteNumbers = true) (hb : b.IsJson) :
    after.IsJson := by
  obtain ⟨members, documents, calls, hreply, -, helements, hcalls, -, happlied⟩ := h
  have hmembers := Reply.isJson_members hfinite (Tool.replyOf_ok hreply)
  have hlist : ((Entries.field? members "calls").getD (.list [])).isJson = true :=
    hmembers.getD "calls" rfl
  refine hb.applyAll (fun c hc => ?_) happlied
  obtain ⟨document, hdocument, hread⟩ := exists_of_mapM_ok hcalls c hc
  exact isJson_of_callIn (Value.isJson_elements hlist helements document hdocument) hread

theorem ownReply_hasFiniteNumbers {replies : List Reply}
    (h : ∀ reply ∈ replies, reply.hasFiniteNumbers = true) (transpile : Bool) :
    (ownReply replies transpile).hasFiniteNumbers = true := by
  have hhead (replies : List Reply) (h : ∀ reply ∈ replies, reply.hasFiniteNumbers = true) :
      (replies.headD .notFound).hasFiniteNumbers = true := by
    cases replies with
    | nil => rfl
    | cons reply rest => exact h reply (List.mem_cons_self ..)
  unfold ownReply
  split
  · exact hhead _ fun reply hreply => h reply (List.mem_of_mem_tail hreply)
  · exact hhead _ h

/-- What a run answers with is a JSON value. -/
theorem Responds.isJson {e : Engine} {request : Request} {ttl : Int} {replies : List Reply}
    {response : Response} (h : e.Responds request ttl replies response)
    (hrequest : request.toValue.isJson = true)
    (hreplies : ∀ reply ∈ replies, reply.hasFiniteNumbers = true) :
    response.toValue.isJson = true := by
  obtain ⟨htag, -, hdesired⟩ := Request.isJson_parts hrequest
  cases h with
  | rejected message => exact Response.isJson_toValue htag hdesired
  | @completed input built hinput hreplays =>
      have hbuilt := hreplays.isJson
        (ownReply_hasFiniteNumbers hreplies input.artifact.transpile)
        (Builder.isJson_ofState hdesired)
      exact Response.isJson_toValue htag hbuilt.desired

/-- Every response can be written. For a request of JSON values, and replies all of whose numbers
are finite, an engine's run answers with a response whose document the encoder's check passes, so
that it is never refused as no document. There is one input without a response: it names another
source type than the one there is, and the refusal cannot be written, since an integer in it has
more digits than are ever shown. -/
theorem run_response_encodable {request : Request} (hrequest : request.toValue.isJson = true)
    (e : Engine) (ttl : Int) (a : Activity)
    (hreplies : ∀ reply ∈ a.replies, reply.hasFiniteNumbers = true) :
    (∃ response after, (e.run request ttl).runOn a = (.ok response, after) ∧
      response.toValue.checkEncodable Value.rootPath = .ok () ∧
      ∀ cause, Yaml.encode response.toValue ≠ .error (.serialization cause)) ∨
    (Value.entryLongInteger request.input = true ∧
      ((e.run request ttl).runOn a).1 = .error (.fault .longInteger)) := by
  obtain ⟨-, hinput, -⟩ := Request.isJson_parts hrequest
  rcases run_cases_named e request ttl a with
    ⟨response, after, hrun, hresponds⟩ | ⟨hlong, hfails⟩
  · have hencodable := (Value.checkEncodable_eq_ok_iff Value.rootPath _).mpr
      (hresponds.isJson hrequest hreplies)
    refine .inl ⟨response, after, hrun, hencodable, fun cause => ?_⟩
    unfold Yaml.encode
    rw [hencodable]
    simp only
    split <;> exact fun h => by cases h
  · exact .inr ⟨hlong.input, hfails⟩

/-- A request with a tag that is no text and a composite from an earlier step. -/
def taggedRequest : Request :=
  { input := [(.str "spec", .object [(.str "source", .object [(.str "inline", .str "f()")])])]
    desired := ⟨some { body := [(.str "status", .object [(.str "zone", .str "west")])] }, []⟩
    tag := .list [.int 1, .float (.ofDecimal false 15 (-1))] }

def recordedReply : Reply :=
  .finished 0 ("\x7b\"ok\": true, \"calls\": [\x7b\"op\": \"updateCompositeStatus\", " ++
    "\"args\": [\x7b\"zone\": \x7b\"size\": 1.5\x7d\x7d]\x7d]\x7d") ""

theorem run_response_encodable_tagged :
    taggedRequest.toValue.isJson = true ∧ recordedReply.hasFiniteNumbers = true ∧
      ∃ response after,
        (usual.run taggedRequest 60).runOn { replies := [recordedReply] } =
          (.ok response, after) ∧
        response.toValue.checkEncodable Value.rootPath = .ok () ∧
        ∀ cause, Yaml.encode response.toValue ≠ .error (.serialization cause) := by
  have hrequest : taggedRequest.toValue.isJson = true := by decide +kernel
  have hreply : recordedReply.hasFiniteNumbers = true := by decide +kernel
  have hreplies : ∀ reply ∈ [recordedReply], reply.hasFiniteNumbers = true :=
    fun reply hmem => List.mem_singleton.mp hmem ▸ hreply
  rcases run_response_encodable hrequest usual 60 { replies := [recordedReply] } hreplies with
    hresponse | ⟨hlong, -⟩
  · exact ⟨hrequest, hreply, hresponse⟩
  · -- no integer in the input is long
    cases hlong

end Engine

end FunctionPipeline

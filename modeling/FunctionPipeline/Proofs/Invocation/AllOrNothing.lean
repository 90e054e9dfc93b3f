import FunctionPipeline.Invocation.Runner
import FunctionPipeline.Proofs.Document.Identity
import FunctionPipeline.Proofs.Invocation.NormalForm
import FunctionPipeline.Proofs.Manifest.Refusals
import FunctionPipeline.Proofs.Tool.Operations

/-!
All or nothing. Whatever an engine's run fails with can be told as a text, so every failure of a
function's body is answered with a fatal result. A body that ends well has replayed every call of
the last reply. An input that is refused is answered before anything is run.
-/

namespace FunctionPipeline

open Operation

namespace Engine

theorem hasText_notTranspiled {failure : Failure} (h : Downgrader.IsRefusal failure) :
    (notTranspiled failure).HasText := by
  cases failure with
  | downgrade message location generated =>
      unfold notTranspiled
      simp only
      split
      · exact Failure.hasText_execution _
      · exact Failure.hasText_fault _
  | fault cause => exact Failure.hasText_fault cause
  | _ => cases h

theorem hasText_of_callIn {document : Value} {failure : Failure}
    (h : callIn document = .error failure) : failure.HasText := by
  unfold callIn at h
  split at h
  · cases h; exact Failure.hasText_fault _
  · split at h
    · cases h
      unfold unknownCall
      split
      · exact Failure.hasText_execution _
      · exact Failure.hasText_fault _
    · split at h
      · cases h; exact Failure.hasText_fault _
      · split at h
        · cases h
        · cases h; exact Failure.hasText_execution _

private theorem hasText_of_apply {b : Builder} {c : Call} {failure : Failure}
    (h : b.apply c = .error failure) : failure.HasText := by
  rw [Builder.apply_eq_change] at h
  cases hchange : c.change with
  | ok change => rw [hchange] at h; cases h
  | error cause =>
      rw [hchange] at h
      cases h
      rcases Builder.refusal_cases hchange with ⟨why, rfl⟩ | ⟨⟨why, rfl⟩, -⟩
      · exact Failure.hasText_invalidResource why
      · exact Failure.hasText_fault why

theorem hasText_of_replay {b : Builder} {documents : List Value} {failure : Failure}
    (h : replay b documents = .error failure) : failure.HasText := by
  induction documents generalizing b with
  | nil => cases h
  | cons document rest ih =>
      rw [replay] at h
      rcases error_of_bind h with hcall | ⟨call, -, h⟩
      · exact hasText_of_callIn hcall
      · rcases error_of_bind h with hrefused | ⟨next, -, hrest⟩
        · exact hasText_of_apply hrefused
        · exact ih hrest

/-- A replay that comes to its end has carried out every recorded call. -/
theorem calls_of_replay {b after : Builder} {documents : List Value}
    (h : replay b documents = .ok after) :
    ∃ calls, documents.mapM callIn = .ok calls ∧ b.applyAll calls = .ok after := by
  induction documents generalizing b with
  | nil => exact ⟨[], rfl, h⟩
  | cons document rest ih =>
      rw [replay] at h
      obtain ⟨call, hcall, happlied⟩ := ok_of_bind h
      obtain ⟨next, hnext, hrest⟩ := ok_of_bind happlied
      obtain ⟨calls, hcalls, hall⟩ := ih hrest
      refine ⟨call :: calls, ?_, ?_⟩
      · rw [List.mapM_cons, hcall, hcalls]
        rfl
      · rw [Builder.applyAll, hnext]
        exact hall

private theorem failsWith_logEntries (tag : Value) (entries : List Value) :
    FailsWith Failure.HasText (logEntries tag entries) := by
  induction entries with
  | nil => exact failsWith_pure ()
  | cons entry rest ih =>
      refine (failsWith_ofFault Failure.hasText_fault _).bind fun r => ?_
      exact (failsWith_log r).bind fun _ => ih

private theorem failsWith_transpiled (e : Engine) (source : String) :
    FailsWith Failure.HasText (e.transpiled source) := by
  intro a failure h
  unfold transpiled at h
  rw [runOn_bind, runOn_outcome] at h
  simp only at h
  split at h
  next => cases h
  next cause hcause =>
    cases h
    exact hasText_notTranspiled (Downgrader.failsWith_downgrade _ _ _ a cause hcause)

private theorem transpiled_ends {e : Engine} {source code : String} {a after : Activity}
    (h : (e.transpiled source).runOn a = (.ok code, after)) :
    after.replies = a.replies.tail := by
  unfold transpiled at h
  rw [runOn_bind, runOn_outcome] at h
  simp only at h
  split at h
  next result hresult =>
    cases h
    exact Downgrader.downgrade_ends (Prod.ext hresult rfl)
  next => cases h

/-- The reply to a function's own run; a source that is transpiled first takes one before it. -/
def ownReply (replies : List Reply) (transpile : Bool) : Reply :=
  (if transpile then replies.tail else replies).headD .notFound

/-- Whatever an engine's run fails with can be told. -/
theorem failsWith_execute (e : Engine) (source : String) (request : Request) (transpile : Bool)
    (b : Builder) : FailsWith Failure.HasText (e.execute source request transpile b) := by
  have hrun (source : String) : FailsWith Failure.HasText (e.execute source request false b) := by
    refine (e.tool.failsWith_run (fun _ => Failure.hasText_execution _) Failure.hasText_fault
      _ _).bind fun reply => ?_
    refine (failsWith_ofFault Failure.hasText_fault _).bind fun entries => ?_
    refine (failsWith_logEntries _ _).bind fun _ => ?_
    refine failsWith_unless Failure.hasText_fault ?_ ?_
    · intro failure hfailure
      obtain ⟨text, -, hend⟩ := ok_of_bind hfailure
      cases hend
      exact Failure.hasText_execution _
    · refine (failsWith_ofFault Failure.hasText_fault _).bind fun calls => ?_
      exact failsWith_ofExcept fun failure => hasText_of_replay
  cases transpile with
  | false => exact hrun source
  | true => exact (failsWith_transpiled e source).bind hrun

/-- What a builder comes to when a reply is replayed on it: the reply is an object that says all
went well, and every one of its calls is accepted, in order. -/
def Replays (e : Engine) (b : Builder) (reply : Reply) (after : Builder) : Prop :=
  ∃ entries documents calls,
    e.tool.replyOf failing reply = .ok entries ∧ Tool.isOk entries = true ∧
    ((Entries.field? entries "calls").getD (.list [])).elements = .ok documents ∧
    documents.mapM callIn = .ok calls ∧ (∀ c ∈ calls, c.isAccepted = true) ∧
    b.applyAll calls = .ok after

/-- An engine's run that gives a builder has replayed the function's own reply. -/
theorem execute_ends {e : Engine} {source : String} {request : Request} {transpile : Bool}
    {b built : Builder} {a after : Activity}
    (h : (e.execute source request transpile b).runOn a = (.ok built, after)) :
    e.Replays b (ownReply a.replies transpile) built := by
  have hrun {source : String} {a : Activity}
      (h : (e.execute source request false b).runOn a = (.ok built, after)) :
      e.Replays b a.nextReply built := by
    obtain ⟨_, _, hsource, hrun⟩ := bind_ends h
    cases hsource
    obtain ⟨entries, _, hreply, hlogs⟩ := bind_ends hrun
    obtain ⟨logs, _, hentries, hlogged⟩ := bind_ends hlogs
    obtain ⟨_, _, _, hjudged⟩ := bind_ends hlogged
    obtain ⟨hok, hcalls⟩ := unless_ends hjudged
    obtain ⟨documents, _, helements, hreplayed⟩ := bind_ends hcalls
    obtain ⟨hdocuments, -⟩ := ofFault_ends helements
    obtain ⟨hreplay, -⟩ := ofExcept_ends hreplayed
    obtain ⟨calls, hmap, hall⟩ := calls_of_replay hreplay
    exact ⟨entries, documents, calls, (Tool.run_ends hreply).1, hok, hdocuments, hmap,
      Builder.accepted_of_applyAll hall, hall⟩
  cases transpile with
  | false => exact hrun h
  | true =>
      obtain ⟨code, between, hcode, hexecuted⟩ := bind_ends h
      have hreplays := hrun hexecuted
      rw [Activity.nextReply, transpiled_ends hcode] at hreplays
      exact hreplays

/-- A response that is the request's desired state and one fatal result. -/
structure Rejected (request : Request) (response : Response) : Prop where
  results : ∃ message, response.results = [⟨.fatal, message⟩]
  statusUpdates : response.statusUpdates = []
  desired : response.desired = request.desired

/-- A response to an input whose function's reply was replayed from the request's desired state
on, without any result. -/
def Completed (e : Engine) (request : Request) (replies : List Reply) (response : Response) :
    Prop :=
  ∃ input b, functionIn request = .ok input ∧
    e.Replays (Builder.ofState request.desired) (ownReply replies input.artifact.transpile) b ∧
    response.results = [] ∧ response.statusUpdates = b.updates ∧ response.desired = b.desired

theorem rejected_fatal (request : Request) (message : String) (ttl : Int) :
    Rejected request (Response.fatal request message ttl) := ⟨⟨message, rfl⟩, rfl, rfl⟩

end Engine

namespace Invocation

/-- An invocation that gives a response gives the one that the body built or a fatal one. -/
theorem of_invoke {body : Body} {request : Request} {ttl : Int} {a after : Activity}
    {response : Response} (h : (invoke body request ttl).runOn a = (.ok response, after)) :
    (∃ built between, (body (Builder.ofState request.desired)).runOn a = (.ok built, between) ∧
        response = built.response request.tag ttl []) ∨
      ∃ message, response = Response.fatal request message ttl := by
  obtain ⟨outcome, between, hbody, hconcluded⟩ := bind_ends h
  have hended := outcome_ends hbody
  cases outcome with
  | ok built =>
      cases hconcluded
      exact Or.inl ⟨built, _, hended, rfl⟩
  | error failure =>
      obtain ⟨text, _, -, hlogged⟩ := bind_ends hconcluded
      obtain ⟨_, _, -, hanswer⟩ := bind_ends hlogged
      cases hanswer
      exact Or.inr ⟨_, rfl⟩

/-- An invocation of a body whose failures can be told gives a response. -/
theorem exists_invoke {body : Body} (request : Request) (ttl : Int)
    (hbody : ∀ b, FailsWith Failure.HasText (body b)) (a : Activity) :
    ∃ response after, (invoke body request ttl).runOn a = (.ok response, after) := by
  unfold invoke
  rw [runOn_bind, runOn_outcome]
  rcases hend : (body (Builder.ofState request.desired)).runOn a with ⟨failure | built, between⟩
  · obtain ⟨text, htext⟩ := hbody _ a failure (by rw [hend])
    refine ⟨Response.fatal request ("function error: " ++ text) ttl,
      between.logged (failureRecord request failure text), ?_⟩
    simp only [conclude, htext]
    rfl
  · exact ⟨built.response request.tag ttl [], between, rfl⟩

end Invocation

namespace Request

/-- The input names another source type than the one there is, by a value with an integer that is
too long to be shown. -/
def NamesLongType (r : Request) : Prop :=
  ∃ v, FunctionInput.Tells (.mapping .readOnly (Entries.freeze r.input)) v ∧
    v.hasLongInteger = true

theorem NamesLongType.input {r : Request} (h : r.NamesLongType) :
    Value.entryLongInteger r.input = true := by
  obtain ⟨v, htold, hlong⟩ := h
  have hinput := Value.hasLongInteger_of_part htold.isShort hlong
  rwa [Value.hasLongInteger, Entries.freeze, Value.entryLongInteger_withAccessEntries] at hinput

end Request

namespace Engine

inductive Responds (e : Engine) (request : Request) (ttl : Int) (replies : List Reply) :
    Response → Prop
  | rejected (message : String) :
      Responds e request ttl replies (Response.fatal request message ttl)
  | completed {input : FunctionInput} {built : Builder} (hinput : functionIn request = .ok input)
      (hreplays : e.Replays (Builder.ofState request.desired)
        (ownReply replies input.artifact.transpile) built) :
      Responds e request ttl replies (built.response request.tag ttl [])

/-- A run answers, unless its input is refused by a failure that is no rule for inputs. -/
theorem run_cases (e : Engine) (request : Request) (ttl : Int) (a : Activity) :
    (∃ response after, (e.run request ttl).runOn a = (.ok response, after) ∧
      e.Responds request ttl a.replies response) ∨
    ∃ failure, functionIn request = .error failure ∧ (∀ cause, failure ≠ .invalidInput cause) ∧
      ((e.run request ttl).runOn a).1 = .error failure := by
  unfold run
  rw [runOn_bind, runOn_log]
  simp only
  split
  next cause hinput => exact Or.inl ⟨_, _, rfl, .rejected _⟩
  next failure hplain hinput => exact Or.inr ⟨failure, hinput, hplain, rfl⟩
  next input hinput =>
    left
    split
    next => exact ⟨_, _, rfl, .rejected _⟩
    next =>
      obtain ⟨response, after, hinvoked⟩ := Invocation.exists_invoke request ttl
        (failsWith_execute e (stripText input.artifact.source) request input.artifact.transpile)
        (a.logged (startRecord request))
      refine ⟨response, after.logged (endRecord request response), ?_, ?_⟩
      · rw [runOn_bind, hinvoked]
        rfl
      · rcases Invocation.of_invoke hinvoked with ⟨built, between, hbuilt, rfl⟩ | ⟨message, rfl⟩
        · have hreplays := execute_ends hbuilt
          exact .completed hinput hreplays
        · exact .rejected message

theorem responds_of_run {e : Engine} {request : Request} {ttl : Int} {a after : Activity}
    {response : Response} (h : (e.run request ttl).runOn a = (.ok response, after)) :
    e.Responds request ttl a.replies response := by
  rcases run_cases e request ttl a with ⟨_, _, hrun, hresponds⟩ | ⟨_, -, -, hfailed⟩
  · rw [h] at hrun
    cases hrun
    exact hresponds
  · rw [h] at hfailed
    cases hfailed

/-- There is one way not to answer: the source type that the input names is told, and cannot be. -/
theorem run_cases_named (e : Engine) (request : Request) (ttl : Int) (a : Activity) :
    (∃ response after, (e.run request ttl).runOn a = (.ok response, after) ∧
      e.Responds request ttl a.replies response) ∨
    (request.NamesLongType ∧ ((e.run request ttl).runOn a).1 = .error (.fault .longInteger)) := by
  rcases run_cases e request ttl a with hresponds | ⟨failure, hfound, hplain, hfailed⟩
  · exact Or.inl hresponds
  · rcases FunctionInput.refused_of_error hfound with ⟨cause, rfl⟩ | ⟨rfl, htold⟩
    · exact absurd rfl (hplain cause)
    · exact Or.inr ⟨htold, hfailed⟩

/-- A response is what the replayed reply comes to, or the request's state with a fatal result. -/
theorem Responds.completed_or_rejected {e : Engine} {request : Request} {ttl : Int}
    {replies : List Reply} {response : Response} (h : e.Responds request ttl replies response) :
    e.Completed request replies response ∨ Rejected request response := by
  cases h with
  | rejected message => exact Or.inr (rejected_fatal request message ttl)
  | completed hinput hreplays => exact Or.inl ⟨_, _, hinput, hreplays, rfl, rfl, rfl⟩

end Engine

namespace Request

/-- A request is made of the parts of a document, each read by itself. -/
theorem parts_of_ofValue {document : Value} {r : Request} (h : ofValue document = .ok r) :
    ∃ entries input, document.entries? = some entries ∧
      Resource.mappingIn entries "input" "input" = .ok input ∧
      State.ofValue ((Entries.field? entries "observed").getD .null) = .ok r.observed ∧
      State.ofValue ((Entries.field? entries "desired").getD .null) = .ok r.desired ∧
      r.tag = tagIn (Entries.orElse entries "meta" (.object [])) ∧
      input.asTree = .ok r.input ∧
      asTree (Entries.orElse entries "context" (.object [])) = .ok r.context := by
  unfold ofValue at h
  split at h
  next entries hentries =>
    split at h
    next => cases h
    next input hinput =>
      obtain ⟨observed, hobserved, hrest⟩ := ok_of_bind h
      obtain ⟨desired, hdesired, hmade⟩ := ok_of_bind hrest
      simp only at hmade
      split at hmade
      next r hparts =>
        cases hmade
        obtain ⟨tree, htree, hrest⟩ := ok_of_bind hparts
        obtain ⟨context, hcontext, hend⟩ := ok_of_bind hrest
        cases hend
        exact ⟨entries, input, hentries, hinput, hobserved, hdesired, rfl, htree, hcontext⟩
      next => cases hmade
  next => cases h

theorem isTree_input {document : Value} {r : Request} (h : ofValue document = .ok r) :
    Entries.IsTree r.input := by
  obtain ⟨_, _, -, -, -, -, -, htree, -⟩ := parts_of_ofValue h
  obtain ⟨hreference, htree⟩ := Entries.asTree_eq_ok_iff.mp htree
  rw [htree]
  exact Entries.isTree_thaw hreference

end Request

namespace Engine

/-- One invocation is all or nothing, whatever replies the outside programs give, unless its input
names a source type that is too long to be shown: the response has replayed every call of the
function's reply from the request's desired state on, or it is that state, with one fatal result.
Where there is no response, the failure is that of the long integer. -/
theorem run_all_or_nothing (e : Engine) (request : Request) (ttl : Int) (a : Activity) :
    (¬ request.NamesLongType →
      ∃ response after, (e.run request ttl).runOn a = (.ok response, after) ∧
        (e.Completed request a.replies response ∨ Rejected request response)) ∧
    ∀ failure, ((e.run request ttl).runOn a).1 = .error failure →
      failure = .fault .longInteger := by
  rcases run_cases_named e request ttl a with ⟨response, after, hrun, hresponds⟩ | ⟨hlong, hfails⟩
  · refine ⟨fun _ => ⟨response, after, hrun, hresponds.completed_or_rejected⟩, fun failure h => ?_⟩
    rw [hrun] at h
    cases h
  · refine ⟨fun hshort => absurd hlong hshort, fun failure h => ?_⟩
    rw [hfails] at h
    cases h
    rfl

/-- A request to transpile a source and run it, with a composed resource from an earlier step. -/
def bucketDocument : Value :=
  .object [
    (.str "input", .object [(.str "spec", .object [(.str "source",
      .object [(.str "inline", .str "f()"), (.str "transpile", .bool true)])])]),
    (.str "desired", .object [(.str "resources",
      .object [(.str "bucket", .object [(.str "resource", .object [(.str "kind", .str "Bucket")]),
        (.str "ready", .str "True")])])])]

def bucketRequest : Request :=
  { input := [(.str "spec", .object [(.str "source",
      .object [(.str "inline", .str "f()"), (.str "transpile", .bool true)])])]
    desired := ⟨none, [(.str "bucket", ⟨[(.str "kind", .str "Bucket")], .yes, []⟩)]⟩ }

theorem bucketDocument_read : Request.ofValue bucketDocument = .ok bucketRequest := by
  simp [bucketDocument, bucketRequest, Request.ofValue, Request.ofParts, Request.asTree,
    Request.tagIn, State.ofValue, State.compositeOf, State.resourcesOf, Resource.ofValue,
    Resource.partsOf, Resource.mappingIn, Ready.ofValue, Entries.asTree, Entries.orElse,
    Entries.field?_cons, Entries.field?_nil, Entries.thaw, Value.thaw, Value.withAccess,
    Value.withAccessEntries, Value.entries?, Value.part?, Value.hasReference,
    Value.entryReference, Value.isTrue, bind, Except.bind, pure, Except.pure]

theorem run_all_or_nothing_bucket :
    Request.ofValue bucketDocument = .ok bucketRequest ∧ ¬ bucketRequest.NamesLongType ∧
    ∃ response after,
      (usual.run bucketRequest 60).runOn { replies := [.timedOut] } = (.ok response, after) ∧
      (usual.Completed bucketRequest [.timedOut] response ∨ Rejected bucketRequest response) := by
  have hshort : ¬ bucketRequest.NamesLongType := fun h => by cases h.input
  exact ⟨bucketDocument_read, hshort,
    (run_all_or_nothing usual bucketRequest 60 { replies := [.timedOut] }).1 hshort⟩

/-- A request whose input names the least integer with too many digits as its source type. -/
def longTypeDocument : Value :=
  .object [(.str "input", .object [(.str "spec", .object [(.str "source",
    .object [(.str "inline", .str "f()"), (.str "type", .int (Nat.pow 10 digitLimit))])])])]

theorem run_raises_on_long_type :
    ∃ request, Request.ofValue longTypeDocument = .ok request ∧
      ((usual.run request 60).runOn {}).1 = .error (.fault .longInteger) := by
  have hread : (Request.ofValue longTypeDocument).toBool = true := by decide +kernel
  cases hrequest : Request.ofValue longTypeDocument with
  | error failure =>
      rw [hrequest] at hread
      cases hread
  | ok request =>
      have hfails : ((Request.ofValue longTypeDocument).toOption.bind fun r =>
          errorOf? ((usual.run r 60).runOn {}).1) = some (.fault .longInteger) := by
        decide +kernel
      rw [hrequest] at hfails
      exact ⟨request, rfl, error_of_errorOf? hfails⟩

end Engine

end FunctionPipeline

import FunctionPipeline.Proofs.Document.Closed
import FunctionPipeline.Proofs.Document.Identity
import FunctionPipeline.Proofs.Invocation.Bodies
import FunctionPipeline.Proofs.Invocation.Composition

/-!
Requests and responses and their documents. A request that was read is one of writable trees, with
a tag that is kept as it came; its document always writes all five parts, and each is read as it
stands there. The desired state of a response is one of writable trees too, whatever ran.
-/

namespace FunctionPipeline

namespace Value

theorem IsTree.isClosed {v : Value} (h : v.IsTree) : v.IsClosed := isClosed_of_tree h.1

theorem isTrue_thaw (v : Value) : v.thaw.isTrue = v.isTrue := by
  cases v with
  | sequence access items => cases items <;> rfl
  | mapping access entries =>
      cases entries with
      | nil => rfl
      | cons e rest => rfl
  | _ => rfl

end Value

namespace Request

/-- A request of writable trees, whose context is not one of the values that count as no, save the
empty mapping. The tag may hold itself. -/
structure IsTree (r : Request) : Prop where
  input : Entries.IsTree r.input
  observed : r.observed.IsTree
  desired : r.desired.IsTree
  tag : r.tag.IsClosed
  context : r.context.IsTree
  given : r.context.isTrue = true ∨ r.context = .object []

theorem asTree_eq_ok_iff {v given : Value} :
    asTree given = .ok v ↔ given.hasReference = false ∧ v = given.thaw := by
  unfold asTree
  split
  next h => simp [h]
  next h => simp [h, eq_comm]

private theorem isClosed_tagIn {metadata : Value} (h : metadata.IsClosed) :
    (tagIn metadata).IsClosed := by
  unfold tagIn
  cases htag : metadata.part? "tag" with
  | none => exact Value.isClosed_str ""
  | some tag => exact h.part? htag

/-- What is read from a closed document is a request of trees. -/
theorem isTree_of_ofValue {document : Value} {r : Request} (hclosed : document.IsClosed)
    (h : ofValue document = .ok r) : r.IsTree := by
  obtain ⟨entries, _, hentries, -, hobserved, hdesired, htag, -, hcontext⟩ := parts_of_ofValue h
  have hes := hclosed.entries? hentries
  obtain ⟨hreference, hthawed⟩ := asTree_eq_ok_iff.mp hcontext
  refine ⟨isTree_input h, State.isTree_of_ofValue hobserved, State.isTree_of_ofValue hdesired,
    ?_, ?_, ?_⟩
  · rw [htag]
    exact isClosed_tagIn (hes.orElse "meta" rfl)
  · rw [hthawed]
    exact Value.isTree_thaw hreference
  · -- a context that counts as no has been replaced before it was made a tree
    rw [hthawed, Value.isTrue_thaw]
    unfold Entries.orElse
    split
    next v _ =>
      split
      next htrue => exact Or.inl htrue
      next => exact Or.inr rfl
    next => exact Or.inr rfl

def entries (r : Request) : Entries :=
  [(.str "meta", .object [(.str "tag", r.tag)]), (.str "input", .object r.input),
    (.str "observed", r.observed.toValue), (.str "desired", r.desired.toValue),
    (.str "context", r.context)]

private theorem isClosed_entries {r : Request} (h : r.IsTree) : Entries.IsClosed r.entries := by
  have hmeta : (Value.object [(.str "tag", r.tag)]).IsClosed :=
    Value.isClosed_mapping (by simp [h.tag])
  have hinput := (Entries.isTree_object.mpr h.input).isClosed
  have hobserved := Value.isClosed_of_tree (State.hasReference_toValue h.observed)
  have hdesired := Value.isClosed_of_tree (State.hasReference_toValue h.desired)
  simp [entries, hmeta, hinput, hobserved, hdesired, h.context.isClosed]

private theorem tagIn_entries {r : Request} (h : r.IsTree) :
    tagIn (Entries.orElse r.entries "meta" (.object [])) = r.tag := by
  have hpart : Value.part? (.object [(.str "tag", r.tag)]) "tag" = some r.tag := by
    rw [Value.part?, Value.entries?_of_closed (by simp [h.tag])]
    simp [Entries.field?_cons]
  have hmeta : Entries.orElse r.entries "meta" (.object []) = .object [(.str "tag", r.tag)] := by
    simp [entries, Entries.orElse, Entries.field?_cons, Value.isTrue]
  rw [hmeta, tagIn, hpart]
  rfl

private theorem orElse_context {r : Request} (h : r.IsTree) :
    Entries.orElse r.entries "context" (.object []) = r.context := by
  have hfield : Entries.field? r.entries "context" = some r.context := by
    simp [entries, Entries.field?_cons]
  rw [Entries.orElse, hfield]
  rcases h.given with htrue | hempty
  · exact if_pos htrue
  · rw [hempty]
    rfl

/-- A request of trees is read back from its document. -/
theorem ofValue_toValue {r : Request} (h : r.IsTree) : ofValue r.toValue = .ok r := by
  have hentries : r.toValue.entries? = some r.entries :=
    Value.entries?_of_closed (isClosed_entries h)
  have hinput : Resource.mappingIn r.entries "input" "input" = .ok r.input :=
    Entries.mappingIn_eq "input" h.input.1 (Or.inl (by simp [entries, Entries.field?_cons]))
  have hobserved : Entries.field? r.entries "observed" = some r.observed.toValue := by
    simp [entries, Entries.field?_cons]
  have hdesired : Entries.field? r.entries "desired" = some r.desired.toValue := by
    simp [entries, Entries.field?_cons]
  have hparts : ofParts r.input r.observed r.desired r.tag r.context = .ok r := by
    rw [ofParts, h.input.asTree, asTree_eq_ok_iff.mpr ⟨h.context.1, h.context.2.symm⟩]
    rfl
  unfold ofValue
  simp only [hentries, hinput, hobserved, hdesired, Option.getD_some,
    State.ofValue_toValue h.observed, State.ofValue_toValue h.desired, tagIn_entries h,
    orElse_context h, hparts, bind, Except.bind]
  rfl

end Request

/-- A body that changes a builder by calls alone: what it returns is the builder it was given after
some calls. -/
def Body.OnlyCalls (body : Body) : Prop :=
  ∀ (b built : Builder) (a after : Activity), (body b).runOn a = (.ok built, after) →
    ∃ calls, built = b.after calls

/-- The engine's body makes the calls that the function's reply records and nothing else. -/
theorem Engine.onlyCalls_execute (e : Engine) (source : String) (request : Request)
    (transpile : Bool) : Body.OnlyCalls (e.execute source request transpile) := by
  intro b built a after h
  obtain ⟨calls, hreturns⟩ := returns_of_execute h
  rw [Body.Returns, h] at hreturns
  exact ⟨calls, by cases hreturns; rfl⟩

/-- A builder of trees stays one under calls, refused ones among them. -/
theorem Builder.IsTree.after {b : Builder} (h : b.IsTree) (calls : List Call) :
    (b.after calls).IsTree := by
  rw [after_eq_changes, ← changesOf_filter_accepted]
  exact h.changes _ fun c hc => (List.mem_filter.mp hc).2

namespace Response

/-- The desired state is found and read as it stands in a response's document, whatever the tag. -/
theorem desired_read_back {r : Response} (h : r.desired.IsTree) :
    ∃ desired, r.toValue.subscript "desired" = .ok desired ∧
      State.ofValue desired = .ok r.desired := by
  refine ⟨r.desired.toValue, ?_, State.ofValue_toValue h⟩
  apply Value.subscript_of_field
  · simp [Entries.field?_cons]
  · exact Value.isClosed_of_tree (State.hasReference_toValue h)

end Response

namespace Invocation

/-- Whether its body returns or fails, what an invocation answers with is a state of trees. -/
theorem isTree_of_invoke {body : Body} {request : Request} {ttl : Int} {a after : Activity}
    {response : Response} (hbody : body.OnlyCalls) (hdesired : request.desired.IsTree)
    (h : (invoke body request ttl).runOn a = (.ok response, after)) : response.desired.IsTree := by
  rcases of_invoke h with ⟨built, _, hbuilt, rfl⟩ | ⟨message, rfl⟩
  · obtain ⟨calls, rfl⟩ := hbody _ _ _ _ hbuilt
    exact Builder.isTree_desired ((Builder.isTree_ofState hdesired).after calls)
  · exact hdesired

end Invocation

/-- So is what an engine's run answers with, an input that is refused included. -/
theorem Engine.isTree_of_run {e : Engine} {request : Request} {ttl : Int} {a after : Activity}
    {response : Response} (hdesired : request.desired.IsTree)
    (h : (e.run request ttl).runOn a = (.ok response, after)) : response.desired.IsTree := by
  cases responds_of_run h with
  | rejected message => exact hdesired
  | completed hinput hreplays =>
      obtain ⟨calls, rfl⟩ := hreplays.eq_after
      exact Builder.isTree_desired ((Builder.isTree_ofState hdesired).after calls)

namespace Invocation

/-- The responses to a request: those of an engine's run of the function in its input, and those of
an invocation of any body that only makes calls. -/
inductive Answers (request : Request) : Response → Prop
  | run {e : Engine} {ttl : Int} {a after : Activity} {response : Response}
      (h : (e.run request ttl).runOn a = (.ok response, after)) : Answers request response
  | invoked {body : Body} {ttl : Int} {a after : Activity} {response : Response}
      (hbody : body.OnlyCalls) (h : (invoke body request ttl).runOn a = (.ok response, after)) :
      Answers request response

theorem Answers.isTree {request : Request} {response : Response} (h : Answers request response)
    (hdesired : request.desired.IsTree) : response.desired.IsTree := by
  cases h with
  | run h => exact Engine.isTree_of_run hdesired h
  | invoked hbody h => exact isTree_of_invoke hbody hdesired h

/-- Every request that is accepted is read back from its document, which is the document that the
request read back has; and the desired state of every response to a request is read back from the
response's document. -/
theorem documents_read_back :
    (∀ (document : Value) (request : Request), document.IsClosed →
      Request.ofValue document = .ok request →
        Request.ofValue request.toValue = .ok request ∧
          (Request.ofValue request.toValue).map Request.toValue = .ok request.toValue) ∧
      ∀ (request : Request) (response : Response), request.desired.IsTree →
        Answers request response →
          ∃ desired, response.toValue.subscript "desired" = .ok desired ∧
            State.ofValue desired = .ok response.desired := by
  constructor
  · intro document request hclosed hread
    have hback := Request.ofValue_toValue (Request.isTree_of_ofValue hclosed hread)
    rw [hback]
    exact ⟨rfl, rfl⟩
  · intro request response hdesired hanswers
    exact Response.desired_read_back (hanswers.isTree hdesired)

/-- A request with a tag that holds itself, and values that count as no in many places. -/
def sparseDocument : Value :=
  .mapping .readOnly
    [(.str "context", .int 0), (.str "meta", .object [(.str "tag", .list [.enclosing 1])]),
      (.str "desired", .object
        [(.str "composite", .object [(.str "connectionDetails", .null)]),
          (.str "resources", .object [(.str "bucket", .object
            [(.str "resource", .mapping .readOnly [(.str "kind", .tuple [])]),
              (.str "ready", .str "False")])])])]

def sparseRequest : Request :=
  { desired := ⟨some ⟨[], .unspecified, []⟩,
      [(.str "bucket", ⟨[(.str "kind", .list [])], .no, []⟩)]⟩
    tag := .list [.enclosing 1] }

def zoneBody : Body := fun b =>
  Operation.ofExcept (b.apply (.updateStatus (.object [(.str "zone", .str "west")])))

theorem onlyCalls_zoneBody : zoneBody.OnlyCalls := by
  intro b built a after h
  obtain ⟨happlied, -⟩ := Operation.ofExcept_ends h
  refine ⟨[.updateStatus (.object [(.str "zone", .str "west")])], ?_⟩
  rw [Builder.after, List.foldl_cons, List.foldl_nil, happlied]
  rfl

theorem documents_read_back_sparse :
    sparseDocument.IsClosed ∧ Request.ofValue sparseDocument = .ok sparseRequest ∧
      Request.ofValue sparseRequest.toValue = .ok sparseRequest ∧
      ∃ response after, (invoke zoneBody sparseRequest 60).runOn {} = (.ok response, after) ∧
        ∃ desired, response.toValue.subscript "desired" = .ok desired ∧
          State.ofValue desired = .ok response.desired := by
  have hclosed : sparseDocument.IsClosed := by decide
  have hread : Request.ofValue sparseDocument = .ok sparseRequest :=
    ok_of_toOption (by decide +kernel)
  have htree := (Request.isTree_of_ofValue hclosed hread).desired
  obtain ⟨response, after, hinvoked⟩ : ∃ response after,
      (invoke zoneBody sparseRequest 60).runOn {} = (.ok response, after) := ⟨_, _, rfl⟩
  refine ⟨hclosed, hread, (documents_read_back.1 _ _ hclosed hread).1, response, after, hinvoked,
    ?_⟩
  exact documents_read_back.2 _ _ htree (.invoked onlyCalls_zoneBody hinvoked)

end Invocation

end FunctionPipeline

import FunctionPipeline.Proofs.Document.Trees
import FunctionPipeline.State.Basic

/-!
States and their documents. The document of a state leaves out what is empty or unspecified, and
reading it puts just that back, so a state of writable trees is read back as it was. Every state
that is read from a document is one of writable trees.
-/

namespace FunctionPipeline

structure Resource.IsTree (r : Resource) : Prop where
  body : Entries.IsTree r.body
  details : Entries.IsTree r.details

structure State.IsTree (s : State) : Prop where
  composite : ∀ r, s.composite = some r → r.IsTree
  resources : ∀ e ∈ s.resources, e.2.IsTree

namespace Value

theorem entries?_of_tree {access : Access} {es : Entries} (h : entryReference es = false) :
    (Value.mapping access es).entries? = some es := by
  simp [entries?, hasReference, h]

end Value

namespace Entries

/-- What stands under a text key, or else the empty mapping: entries that are a tree are found as
they are, and so are those that are left out because they are empty. -/
theorem mappingIn_eq {es below : Entries} {key : String} (what : String)
    (h : Value.entryReference below = false)
    (hfield : field? es key = some (.object below) ∨ (field? es key = none ∧ below = [])) :
    Resource.mappingIn es key what = .ok below := by
  have hentries : (orElse es key (.object [])).entries? = some below := by
    rcases hfield with hsome | ⟨hnone, rfl⟩
    · rw [orElse, hsome]
      cases below with
      | nil => rfl
      | cons e rest => exact Value.entries?_of_tree h
    · rw [orElse, hnone]
      rfl
  rw [Resource.mappingIn, hentries]

end Entries

namespace Resource

private theorem field?_body (r : Resource) :
    Entries.field? ((Value.str "resource", Value.object r.body) ::
      (readyPart r.ready ++ detailsPart r.details)) "resource" = some (.object r.body) := by
  simp [Entries.field?, Entries.get?_cons, Value.str_equals_self]

private theorem field?_ready (r : Resource) :
    Ready.ofValue ((Entries.field? ((Value.str "resource", Value.object r.body) ::
      (readyPart r.ready ++ detailsPart r.details)) "ready").getD .null) = r.ready := by
  cases hready : r.ready <;> by_cases hdetails : r.details.isEmpty <;>
    simp [Entries.field?, Entries.get?_cons, Entries.get?_nil, readyPart, detailsPart, hdetails,
      Value.equals, Value.scalarEquals, Ready.ofValue, Ready.text]

private theorem field?_details (r : Resource) :
    let es := (Value.str "resource", Value.object r.body) ::
      (readyPart r.ready ++ detailsPart r.details)
    Entries.field? es "connectionDetails" = some (.object r.details) ∨
      (Entries.field? es "connectionDetails" = none ∧ r.details = []) := by
  by_cases hdetails : r.details = []
  · right
    refine ⟨?_, hdetails⟩
    cases r.ready <;>
      simp [Entries.field?, Entries.get?_cons, Entries.get?_nil, readyPart, detailsPart, hdetails,
        Value.equals, Value.scalarEquals]
  · left
    have hempty : r.details.isEmpty = false := by simpa using hdetails
    cases r.ready <;>
      simp [Entries.field?, Entries.get?_cons, readyPart, detailsPart, hempty, Value.equals,
        Value.scalarEquals]

theorem hasReference_toValue {r : Resource} (h : r.IsTree) : r.toValue.hasReference = false := by
  have hready : Value.entryReference (readyPart r.ready ++ detailsPart r.details) = false := by
    by_cases hempty : r.details.isEmpty
    · cases r.ready <;>
        simp [readyPart, detailsPart, hempty, Value.entryReference, Value.hasReference]
    · cases r.ready <;>
        simp [readyPart, detailsPart, hempty, Value.entryReference, Value.hasReference,
          h.details.1]
  simp [toValue, Value.hasReference, Value.entryReference, h.body.1, hready]

/-- A resource of trees is read back from its document. -/
theorem ofValue_toValue {r : Resource} (h : r.IsTree) : ofValue r.toValue = .ok r := by
  have hentries : r.toValue.entries? = some ((Value.str "resource", Value.object r.body) ::
      (readyPart r.ready ++ detailsPart r.details)) :=
    Value.entries?_of_tree (by simpa [toValue, Value.hasReference] using hasReference_toValue h)
  have hparts : partsOf r.toValue = .ok (r.body, r.details, r.ready) := by
    unfold partsOf
    rw [hentries]
    simp only [Entries.mappingIn_eq "Resource body" h.body.1 (Or.inl (field?_body r)),
      Entries.mappingIn_eq "connectionDetails" h.details.1 (field?_details r), field?_ready]
    rfl
  rw [ofValue, hparts]
  simp only [h.body.asTree, h.details.asTree]

/-- What is read from a document is a resource of trees. -/
theorem isTree_of_ofValue {document : Value} {r : Resource} (h : ofValue document = .ok r) :
    r.IsTree := by
  rw [ofValue] at h
  split at h
  next => cases h
  next body details ready _ =>
    split at h
    next body' details' hbody hdetails =>
      obtain ⟨hb, rfl⟩ := Entries.asTree_eq_ok_iff.mp hbody
      obtain ⟨hd, rfl⟩ := Entries.asTree_eq_ok_iff.mp hdetails
      cases h
      exact ⟨Entries.isTree_thaw hb, Entries.isTree_thaw hd⟩
    next => cases h
    next => cases h

end Resource

namespace State

private theorem resourcesOf_map {resources : Resources} (h : ∀ e ∈ resources, e.2.IsTree) :
    resourcesOf (resources.map fun (name, r) => (name, r.toValue)) = .ok resources := by
  induction resources with
  | nil => rfl
  | cons e rest ih =>
      obtain ⟨name, r⟩ := e
      have hr : r.IsTree := h (name, r) (by simp)
      have hrest := ih fun e he => h e (by simp [he])
      simp only [List.map_cons, resourcesOf, Resource.ofValue_toValue hr, hrest]
      rfl

private theorem entryReference_map {resources : Resources} (h : ∀ e ∈ resources, e.2.IsTree) :
    Value.entryReference (resources.map fun (name, r) => (name, r.toValue)) = false := by
  rw [Value.entryReference_eq_false_iff, List.forall_mem_map]
  exact fun e he => Resource.hasReference_toValue (h e he)

private theorem compositeOf_toValue {r : Resource} (h : r.IsTree) :
    compositeOf r.toValue = .ok (some r) := by
  rw [compositeOf]
  · rw [Resource.ofValue_toValue h]
    rfl
  · intro hnull
    cases hnull

private theorem entryReference_parts {s : State} (h : s.IsTree) :
    Value.entryReference (compositePart s.composite ++ resourcesPart s.resources) = false := by
  have hresources := entryReference_map h.resources
  have hpart : Value.entryReference (resourcesPart s.resources) = false := by
    unfold resourcesPart resourcesValue
    split <;> simp [Value.entryReference, Value.hasReference, hresources]
  cases hcomposite : s.composite with
  | none => exact hpart
  | some r =>
      simp [compositePart, Value.entryReference,
        Resource.hasReference_toValue (h.composite r hcomposite), hpart]

theorem hasReference_toValue {s : State} (h : s.IsTree) : s.toValue.hasReference = false :=
  entryReference_parts h

private theorem field?_resources (s : State) :
    let es := compositePart s.composite ++ resourcesPart s.resources
    Entries.field? es "resources" =
        some (.object (s.resources.map fun (name, r) => (name, r.toValue))) ∨
      (Entries.field? es "resources" = none ∧
        (s.resources.map fun (name, r) => (name, r.toValue)) = []) := by
  cases hresources : s.resources with
  | nil =>
      right
      cases s.composite <;>
        simp [compositePart, resourcesPart, Entries.field?, Entries.get?_cons, Entries.get?_nil,
          Value.equals, Value.scalarEquals]
  | cons e rest =>
      left
      cases s.composite <;>
        simp [compositePart, resourcesPart, resourcesValue, Entries.field?, Entries.get?_cons,
          Value.equals, Value.scalarEquals]

private theorem field?_composite (s : State) :
    Entries.field? (compositePart s.composite ++ resourcesPart s.resources) "composite" =
      s.composite.map Resource.toValue := by
  cases s.composite with
  | none =>
      simp only [compositePart, resourcesPart, List.nil_append]
      split <;>
        simp [Entries.field?, Entries.get?_cons, Entries.get?_nil, Value.equals,
          Value.scalarEquals]
  | some r => simp [compositePart, Entries.field?, Entries.get?_cons, Value.str_equals_self]

/-- A state of trees is read back from its document. -/
theorem ofValue_toValue {s : State} (h : s.IsTree) : ofValue s.toValue = .ok s := by
  have hreference := entryReference_parts h
  cases hparts : compositePart s.composite ++ resourcesPart s.resources with
  | nil =>
      -- nothing is written, so the state is the empty one
      obtain ⟨composite, resources⟩ := s
      cases composite with
      | some r => simp [compositePart] at hparts
      | none =>
          cases resources with
          | cons e rest => simp [compositePart, resourcesPart] at hparts
          | nil => rfl
  | cons e rest =>
      have htrue : s.toValue.isTrue = true := by
        rw [toValue, hparts]
        rfl
      have hentries : s.toValue.entries? =
          some (compositePart s.composite ++ resourcesPart s.resources) :=
        Value.entries?_of_tree hreference
      have hcomposite : compositeOf ((Entries.field?
          (compositePart s.composite ++ resourcesPart s.resources) "composite").getD .null) =
          .ok s.composite := by
        rw [field?_composite]
        cases hc : s.composite with
        | none => rfl
        | some r => exact compositeOf_toValue (h.composite r hc)
      unfold ofValue
      simp only [htrue, hentries, Bool.not_true, Bool.false_eq_true, if_false,
        Entries.mappingIn_eq "resources" (entryReference_map h.resources) (field?_resources s),
        hcomposite, resourcesOf_map h.resources]
      rfl

private theorem isTree_of_resourcesOf {documents : List (Value × Value)} {resources : Resources}
    (h : resourcesOf documents = .ok resources) : ∀ e ∈ resources, e.2.IsTree := by
  induction documents generalizing resources with
  | nil =>
      cases h
      simp
  | cons d rest ih =>
      obtain ⟨name, document⟩ := d
      simp only [resourcesOf] at h
      cases hr : Resource.ofValue document with
      | error failure => rw [hr] at h; cases h
      | ok r =>
          cases hrest : resourcesOf rest with
          | error failure => rw [hr, hrest] at h; cases h
          | ok others =>
              rw [hr, hrest] at h
              cases h
              intro e he
              rcases List.mem_cons.mp he with rfl | hmem
              · exact Resource.isTree_of_ofValue hr
              · exact ih hrest e hmem

private theorem isTree_of_compositeOf {document : Value} {r : Resource}
    (h : compositeOf document = .ok (some r)) : r.IsTree := by
  unfold compositeOf at h
  split at h
  next => cases h
  next =>
    cases hr : Resource.ofValue document with
    | error failure => rw [hr] at h; cases h
    | ok found =>
        rw [hr] at h
        cases h
        exact Resource.isTree_of_ofValue hr

/-- What is read from a document is a state of trees. -/
theorem isTree_of_ofValue {document : Value} {s : State} (h : ofValue document = .ok s) :
    s.IsTree := by
  unfold ofValue at h
  split at h
  next =>
    cases h
    exact ⟨by simp, by simp⟩
  next =>
    split at h
    next entries _ =>
      split at h
      next => cases h
      next documents _ =>
        generalize (Entries.field? entries "composite").getD .null = c at h
        cases hcomposite : compositeOf c with
        | error failure => rw [hcomposite] at h; cases h
        | ok composite =>
            cases hresources : resourcesOf documents with
            | error failure => rw [hcomposite, hresources] at h; cases h
            | ok resources =>
                rw [hcomposite, hresources] at h
                cases h
                refine ⟨?_, isTree_of_resourcesOf hresources⟩
                rintro r rfl
                exact isTree_of_compositeOf hcomposite
    next => cases h

end State

end FunctionPipeline

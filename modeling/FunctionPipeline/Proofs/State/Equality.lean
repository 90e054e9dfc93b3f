import FunctionPipeline.Proofs.Document.Equality
import FunctionPipeline.Proofs.State.RoundTrip

/-!
Equality of states, up to equality of contents. Documents leave out what is empty or unspecified,
but resources with equal documents are equal in every part.
-/

namespace FunctionPipeline

structure Resource.Same (r s : Resource) : Prop where
  body : (Value.object r.body).equals (.object s.body) = true
  ready : r.ready = s.ready
  details : (Value.object r.details).equals (.object s.details) = true

/-- Equal resources under the same names, in any order. -/
structure Resources.Same (rs ss : Resources) : Prop where
  length : rs.length = ss.length
  under : ∀ e ∈ rs, ∃ s, Entries.get? ss e.1 = some s ∧ e.2.Same s

structure State.Same (s t : State) : Prop where
  composite : Option.Rel Resource.Same s.composite t.composite
  resources : Resources.Same s.resources t.resources

/-- A resource of writable trees in which every mapping and every set can be one. -/
structure Resource.IsProper (r : Resource) : Prop where
  tree : r.IsTree
  body : Entries.IsProper r.body
  details : Entries.IsProper r.details

theorem Resource.IsProper.same {r : Resource} (h : r.IsProper) : r.Same r :=
  ⟨h.body.equals_self, rfl, h.details.equals_self⟩

namespace Resource

/-- Equal resources have equal bodies, those that are not there none. -/
theorem equals_body_of_rel {found other : Option Resource} (h : Option.Rel Same found other) :
    (Value.object ((found.map body).getD [])).equals (.object ((other.map body).getD [])) =
      true := by
  cases h with
  | none => exact Entries.isProper_nil.equals_self
  | some hsame => exact hsame.body

def documentOf (r : Resource) : Entries :=
  (.str "resource", .object r.body) :: (readyPart r.ready ++ detailsPart r.details)

theorem isKeyed_documentOf (r : Resource) : Entries.IsKeyed r.documentOf := by
  obtain ⟨body, ready, details⟩ := r
  constructor
  · cases ready <;> cases details <;>
      simp [documentOf, readyPart, detailsPart, Entries.AreKeys, Value.unhashable?]
  · cases ready <;> cases details <;>
      simp [documentOf, readyPart, detailsPart, Entries.Distinct, Entries.keys, Value.equals,
        Value.scalarEquals]

theorem body_documentOf (r : Resource) :
    Entries.field? r.documentOf "resource" = some (.object r.body) := by
  rw [documentOf, Entries.field?_cons, if_pos rfl]

theorem ready_documentOf (r : Resource) :
    Entries.field? r.documentOf "ready" =
      if r.ready = .unspecified then none else some (.str r.ready.text) := by
  obtain ⟨body, ready, details⟩ := r
  cases ready <;> cases details <;>
    simp [documentOf, readyPart, detailsPart, Entries.field?_cons, Entries.field?_nil]

theorem details_documentOf (r : Resource) :
    Entries.field? r.documentOf "connectionDetails" =
      if r.details.isEmpty then none else some (.object r.details) := by
  obtain ⟨body, ready, details⟩ := r
  cases ready <;> cases details <;>
    simp [documentOf, readyPart, detailsPart, Entries.field?_cons, Entries.field?_nil]

/-- Resources with equal documents are equal. -/
theorem same_of_toValue {r s : Resource} (h : r.toValue.equals s.toValue = true) : r.Same s := by
  have hfound (name : String) : Value.EqualFound (Entries.field? r.documentOf name)
      (Entries.field? s.documentOf name) :=
    (Entries.equals_iff_get? r.isKeyed_documentOf s.isKeyed_documentOf _ _).mp h (.str name) rfl
  have hbody := hfound "resource"
  have hready := hfound "ready"
  have hdetails := hfound "connectionDetails"
  rw [body_documentOf, body_documentOf] at hbody
  rw [ready_documentOf, ready_documentOf] at hready
  rw [details_documentOf, details_documentOf] at hdetails
  refine ⟨?_, ?_, ?_⟩
  · simpa using hbody
  · cases hr : r.ready <;> cases hs : s.ready <;>
      simp [hr, hs, Value.str_equals_iff, Ready.text] at hready ⊢
  · cases hr : r.details.isEmpty <;> cases hs : s.details.isEmpty <;>
      simp only [hr, hs, Bool.false_eq_true, if_true, if_false, Option.rel_some_some,
        Option.not_rel_some_none, Option.not_rel_none_some] at hdetails
    · exact hdetails
    · rw [List.isEmpty_iff.mp hr, List.isEmpty_iff.mp hs]
      exact Entries.isProper_nil.equals_self

end Resource

theorem Entries.get?_map {α β : Type} (f : α → β) (es : List (Value × α)) (key : Value) :
    get? (es.map fun e => (e.1, f e.2)) key = (get? es key).map f := by
  induction es with
  | nil => rfl
  | cons e es ih =>
      rw [List.map_cons, get?_cons, get?_cons, ih]
      split <;> rfl

/-- Composed resources with equal documents are equal. -/
theorem Resources.same_of_resourcesValue {rs ss : Resources}
    (h : (State.resourcesValue rs).equals (State.resourcesValue ss) = true) : Same rs ss := by
  simp only [State.resourcesValue, Value.equals, Bool.and_eq_true, beq_iff_eq, List.length_map,
    Value.entriesIn_iff, List.forall_mem_map] at h
  refine ⟨h.1, fun e he => ?_⟩
  obtain ⟨w, hw, hequal⟩ := h.2 e he
  rw [Entries.get?_map] at hw
  obtain ⟨s, hs, rfl⟩ := Option.map_eq_some_iff.mp hw
  exact ⟨s, hs, Resource.same_of_toValue hequal⟩

end FunctionPipeline

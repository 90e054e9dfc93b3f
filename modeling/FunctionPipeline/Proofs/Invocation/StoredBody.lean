import FunctionPipeline.Invocation.Builder
import FunctionPipeline.Proofs.Document.Trees

/-!
What a builder stores of a resource's body: the writable copy of what the function gave, with the
annotation for readiness taken out where it stands and nothing else changed.
-/

namespace FunctionPipeline

/-- Entries with the value under a text key changed in place; the same entries if it is no key. -/
def Entries.modify (f : Value → Value) (name : String) : Entries → Entries
  | [] => []
  | (k, v) :: rest =>
      if (Value.str name).equals k then (k, f v) :: rest else (k, v) :: modify f name rest

/-- A value with what stands at a path of text keys changed in place; the same value if the path
leads nowhere. -/
def Value.modifyAt (f : Value → Value) : List String → Value → Value
  | [], v => f v
  | name :: rest, .mapping access es =>
      .mapping access (Entries.modify (Value.modifyAt f rest) name es)
  | _ :: _, v => v

/-- A mapping without the entry of a text key; any other value as it is. -/
def Value.without (name : String) : Value → Value
  | .mapping access es => .mapping access (Entries.erase es (.str name))
  | v => v

namespace Entries

theorem modify_of_field? {es : Entries} {name : String} {v : Value} (f : Value → Value)
    (h : field? es name = some v) : modify f name es = put es (.str name) (f v) := by
  induction es with
  | nil => simp [field?, get?_nil] at h
  | cons e es ih =>
      obtain ⟨k, w⟩ := e
      simp only [field?, get?_cons] at h
      simp only [modify, put]
      split at h
      next hk =>
        rw [if_pos hk, if_pos hk, Option.some.inj h]
      next hk =>
        rw [if_neg hk, if_neg hk, ih h]

/-- Changing a value into itself changes nothing. -/
theorem modify_eq_self {es : Entries} {name : String} {f : Value → Value}
    (h : ∀ v, field? es name = some v → f v = v) : modify f name es = es := by
  induction es with
  | nil => rfl
  | cons e es ih =>
      obtain ⟨k, w⟩ := e
      simp only [field?, get?_cons] at h
      simp only [modify]
      split
      next hk => rw [h w (by rw [if_pos hk])]
      next hk =>
        have hrest : modify f name es = es := ih fun v hv => h v (by rw [if_neg hk]; exact hv)
        rw [hrest]

theorem erase_of_not_mem {es : Entries} {name : String} (h : field? es name = none) :
    erase es (.str name) = es := by
  rw [field?_eq_none_iff] at h
  rw [erase, List.filter_eq_self]
  intro e he
  have hk : (Value.str name).equals e.1 = false := by
    rw [Bool.eq_false_iff]
    intro heq
    rw [Value.str_equals_iff] at heq
    exact h (heq ▸ List.mem_map_of_mem he)
  simp [hk]

theorem IsTree.modify {es : Entries} (h : IsTree es) {f : Value → Value}
    (hf : ∀ v, v.IsTree → (f v).IsTree) (name : String) : IsTree (modify f name es) := by
  induction es with
  | nil => exact isTree_nil
  | cons e es ih =>
      obtain ⟨k, w⟩ := e
      obtain ⟨hw, hes⟩ := isTree_cons.mp h
      simp only [Entries.modify]
      split
      · exact isTree_cons.mpr ⟨hf w hw, hes⟩
      · exact isTree_cons.mpr ⟨hw, ih hes⟩

end Entries

namespace Value

/-- A change that keeps trees keeps them below any path. -/
theorem IsTree.modifyAt {f : Value → Value} (hf : ∀ v, v.IsTree → (f v).IsTree) (path : List String)
    {v : Value} (h : v.IsTree) : (modifyAt f path v).IsTree := by
  induction path generalizing v with
  | nil => exact hf v h
  | cons name rest ih =>
      cases v with
      | mapping access es =>
          obtain ⟨rfl, hes⟩ := Entries.isTree_mapping h
          exact Entries.isTree_object.mpr (hes.modify (fun w hw => ih hw) name)
      | _ => exact h

theorem IsTree.without (name : String) {v : Value} (h : v.IsTree) : (without name v).IsTree := by
  cases v with
  | mapping access es =>
      obtain ⟨rfl, hes⟩ := Entries.isTree_mapping h
      exact Entries.isTree_object.mpr (hes.filter _)
  | _ => exact h

end Value

namespace Builder

def annotationsPath : List String := ["metadata", "annotations"]

def storedBody (given : Entries) : Entries :=
  match Value.modifyAt (Value.without readyAnnotation) annotationsPath (.object given.thaw) with
  | .mapping _ es => es
  | _ => []

/-- The readiness that a body states in its annotation; one without it states none. -/
def statedReadiness (given : Entries) : Ready :=
  match (Value.object given.thaw).along?
      [.str "metadata", .str "annotations", .str readyAnnotation] with
  | some mark => Ready.ofValue mark
  | none => .unspecified

theorem storedBody_eq (given : Entries) :
    storedBody given =
      Entries.modify (Value.modifyAt (Value.without readyAnnotation) ["annotations"]) "metadata"
        given.thaw := rfl

theorem isTree_storedBody {given : Entries} (h : Value.entryReference given = false) :
    Entries.IsTree (storedBody given) := by
  have htree : (Value.object given.thaw).IsTree :=
    Entries.isTree_object.mpr (Entries.isTree_thaw h)
  exact Entries.isTree_object.mp
    (htree.modifyAt (fun _ hv => hv.without readyAnnotation) annotationsPath)

private theorem along?_text {es : Entries} (h : Value.entryReference es = false) (access : Access)
    (name : String) (rest : List Value) :
    (Value.mapping access es).along? (.str name :: rest) =
      (Entries.field? es name).bind fun v => v.along? rest :=
  Value.along?_cons h access (.str name) rest

/-- The builder's own way of taking the annotation out stores just that body and readiness. -/
theorem withoutReadiness_thaw {given : Entries} (h : Value.entryReference given = false) :
    withoutReadiness given.thaw = (storedBody given, statedReadiness given) := by
  have htree : Entries.IsTree given.thaw := Entries.isTree_thaw h
  generalize hbody : given.thaw = body at htree
  rw [storedBody_eq, statedReadiness, hbody, along?_text htree.1]
  unfold withoutReadiness
  cases hmetadata : Entries.field? body "metadata" with
  | none =>
      rw [Entries.modify_eq_self (by simp [hmetadata])]
      rfl
  | some v =>
      cases v with
      | mapping access metadata =>
          have hmtree := (Entries.isTree_mapping (htree.get? hmetadata)).2
          rw [Entries.modify_of_field? _ hmetadata]
          simp only [Option.bind_some, Value.modifyAt, along?_text hmtree.1]
          cases hannotations : Entries.field? metadata "annotations" with
          | none =>
              simp only [Option.bind_none]
              rw [Entries.modify_eq_self (by simp [hannotations]),
                ← Entries.modify_of_field? (fun v => v) hmetadata,
                Entries.modify_eq_self (fun _ _ => rfl)]
          | some w =>
              rw [Entries.modify_of_field? _ hannotations]
              cases w with
              | mapping below annotations =>
                  have hatree := (Entries.isTree_mapping (hmtree.get? hannotations)).2
                  simp only [Option.bind_some, Value.without, along?_text hatree.1]
                  cases hmark : Entries.field? annotations readyAnnotation with
                  | some mark => rfl
                  | none =>
                      -- without the annotation both writes put back what stands there
                      rw [Entries.erase_of_not_mem hmark,
                        ← Entries.modify_of_field? (fun v => v) hannotations,
                        Entries.modify_eq_self (fun _ _ => rfl),
                        ← Entries.modify_of_field? (fun v => v) hmetadata,
                        Entries.modify_eq_self (fun _ _ => rfl)]
                      rfl
              | _ =>
                  simp only [Option.bind_some, Value.without, Value.along?, Value.entries?]
                  rw [← Entries.modify_of_field? (fun v => v) hannotations,
                    Entries.modify_eq_self (fun _ _ => rfl),
                    ← Entries.modify_of_field? (fun v => v) hmetadata,
                    Entries.modify_eq_self (fun _ _ => rfl)]
      | _ =>
          rw [Entries.modify_eq_self (by simp [hmetadata, Value.modifyAt])]
          simp only [Option.bind_some, Value.along?, Value.entries?]

end Builder

end FunctionPipeline

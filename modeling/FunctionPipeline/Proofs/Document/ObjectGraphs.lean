import Mathlib.Data.Fintype.Card
import FunctionPipeline.Document.Encodable

/-!
Documents as graphs of objects. A heap holds finitely many containers, which may stand in several
places and lead back to themselves; `Heap.value` is the document value that one sees from a place.
`Heap.Checks` is the encoder's check as it runs on a heap: depth first, with the set of the
containers it is inside of. A run always ends, in one way, that of `Value.checkEncodable`, and it
leaves the set as it was: `Heap.checks_iff`.
-/

namespace FunctionPipeline

/-- Whether a value holds others, by itself or through a reference. -/
def Value.isContainer : Value → Bool
  | .sequence _ _ | .mapping _ _ | .enclosing _ => true
  | _ => false

def Value.isScalar : Value → Bool
  | .null | .bool _ | .int _ | .float _ | .str _ => true
  | _ => false

inductive Heap.Slot (n : Nat) where
  | leaf (v : Value) (h : v.isContainer = false)
  | node (id : Fin n)

inductive Heap.Container (n : Nat) where
  | sequence (access : Access) (items : List (Heap.Slot n))
  | mapping (access : Access) (entries : List (Value × Heap.Slot n))

/-- The containers of a program, told apart by their identity. -/
abbrev Heap (n : Nat) := Fin n → Heap.Container n

namespace Heap

variable {n : Nat}

theorem card_outside_lt {above : List (Fin n)} {id : Fin n} (hid : id ∉ above) :
    ((id :: above).toFinset)ᶜ.card < (above.toFinset)ᶜ.card := by
  rw [List.toFinset_cons, Finset.compl_insert]
  apply Finset.card_erase_lt_of_mem
  rwa [Finset.mem_compl, List.mem_toFinset]

/-- The value at a place, seen from inside of containers, the innermost first. -/
def value (h : Heap n) (above : List (Fin n)) : Slot n → Value
  | .leaf v _ => v
  | .node id =>
      if id ∈ above then .enclosing (above.idxOf id + 1)
      else
        match h id with
        | .sequence access items => .sequence access (items.map (h.value (id :: above)))
        | .mapping access entries =>
            .mapping access (entries.map fun e => (e.1, h.value (id :: above) e.2))
termination_by (above.toFinset)ᶜ.card
decreasing_by all_goals exact card_outside_lt ‹_›

/-- What the check comes by in a container, each with its path. -/
inductive Visit (n : Nat) where
  | key (path : String) (k : Value)
  | slot (path : String) (x : Slot n)

/-- The items of a sequence; of a mapping each key and then what is under it. -/
def Container.visits (path : String) : Container n → List (Visit n)
  | .sequence _ items => items.zipIdx.map fun e => .slot s!"{path}[{e.2}]" e.1
  | .mapping _ entries =>
      entries.flatMap fun e => [.key path e.1, .slot s!"{path}.{e.1.text}" e.2]

def whole (root : Slot n) : List (Visit n) := [.slot Value.rootPath root]

/-- What offends in a visit itself, made from inside of containers. The message of a key that is no
text shows the key, which a long integer in it does not allow. -/
def Visit.offence? (above : List (Fin n)) : Visit n → Option EncodeError
  | .key _ (.str _) => none
  | .key path k =>
      if k.hasLongInteger then some (.fault .longInteger)
      else some (.keyNotText k.typeName k.literal path)
  | .slot path (.leaf (.float x) _) => if x.isFinite then none else some (.nonFinite path)
  | .slot path (.leaf v _) => if v.isScalar then none else some (.noForm v.typeName path)
  | .slot path (.node id) => if id ∈ above then some (.cyclic path) else none

/-- A run over visits from a set of active containers to an outcome and the set it leaves. A
container is active while what is in it is visited, however that ends. -/
inductive Checks (h : Heap n) : Finset (Fin n) → List (Visit n) → Except EncodeError Unit →
    Finset (Fin n) → Prop
  | done {active} : Checks h active [] (.ok ()) active
  | text {active path name rest outcome left}
      (hrest : Checks h active rest outcome left) :
      Checks h active (.key path (.str name) :: rest) outcome left
  | keyNotText {active path k rest} (hk : ∀ name, k ≠ .str name) :
      Checks h active (.key path k :: rest) (.error (.ofKey k path)) active
  | leaf {active path v hv rest outcome left} (hpass : v.checkEncodable path = .ok ())
      (hrest : Checks h active rest outcome left) :
      Checks h active (.slot path (.leaf v hv) :: rest) outcome left
  | leafRejected {active path v hv rest e} (hreject : v.checkEncodable path = .error e) :
      Checks h active (.slot path (.leaf v hv) :: rest) (.error e) active
  | cyclic {active path id rest} (hid : id ∈ active) :
      Checks h active (.slot path (.node id) :: rest) (.error (.cyclic path)) active
  | inside {active path id rest outcome inner left} (hid : id ∉ active)
      (hinside : Checks h (insert id active) ((h id).visits path) (.ok ()) inner)
      (hrest : Checks h (inner.erase id) rest outcome left) :
      Checks h active (.slot path (.node id) :: rest) outcome left
  | insideRejected {active path id rest e inner} (hid : id ∉ active)
      (hinside : Checks h (insert id active) ((h id).visits path) (.error e) inner) :
      Checks h active (.slot path (.node id) :: rest) (.error e) (inner.erase id)

def outcome (h : Heap n) (above : List (Fin n)) : Visit n → Except EncodeError Unit
  | .key _ (.str _) => .ok ()
  | .key path k => .error (.ofKey k path)
  | .slot path x => (h.value above x).checkEncodable path

/-- Of several, until one is rejected. -/
def outcomes (h : Heap n) (above : List (Fin n)) (visits : List (Visit n)) :
    Except EncodeError Unit :=
  visits.forM (h.outcome above)

section Outcomes

variable {h : Heap n} {above : List (Fin n)} {v : Visit n} {rest : List (Visit n)}

theorem outcomes_cons :
    h.outcomes above (v :: rest) = h.outcome above v >>= fun _ => h.outcomes above rest := rfl

theorem outcomes_cons_ok (hv : h.outcome above v = .ok ()) :
    h.outcomes above (v :: rest) = h.outcomes above rest := by
  rw [outcomes_cons, hv]
  rfl

theorem outcomes_cons_error {e : EncodeError} (hv : h.outcome above v = .error e) :
    h.outcomes above (v :: rest) = .error e := by
  rw [outcomes_cons, hv]
  rfl

theorem outcomes_whole (root : Slot n) :
    h.outcomes above (whole root) = (h.value above root).checkEncodable Value.rootPath := by
  have hone : h.outcomes above (whole root) = h.outcome above (.slot Value.rootPath root) >>=
      fun _ => .ok () := rfl
  rw [hone, outcome]
  cases (h.value above root).checkEncodable Value.rootPath <;> rfl

theorem outcome_keyNotText {path : String} {k : Value} (hk : ∀ name, k ≠ .str name) :
    h.outcome above (.key path k) = .error (.ofKey k path) := by
  cases k with
  | str name => exact absurd rfl (hk name)
  | _ => rfl

theorem outcome_leaf {path : String} {v : Value} {hv : v.isContainer = false} :
    h.outcome above (.slot path (.leaf v hv)) = v.checkEncodable path := by
  rw [outcome, value]

theorem outcome_cyclic {path : String} {id : Fin n} (hid : id ∈ above) :
    h.outcome above (.slot path (.node id)) = .error (.cyclic path) := by
  rw [outcome, value, if_pos hid, Value.checkEncodable]

theorem checkItems_map (path : String) (items : List (Slot n)) (index : Nat) :
    Value.checkItems path index (items.map (h.value above)) =
      h.outcomes above ((items.zipIdx index).map fun e => .slot s!"{path}[{e.2}]" e.1) := by
  induction items generalizing index with
  | nil => rfl
  | cons x xs ih =>
      rw [List.map_cons, Value.checkItems, ih (index + 1)]
      rfl

theorem checkEntries_map (path : String) (entries : List (Value × Slot n)) :
    Value.checkEntries path (entries.map fun e => (e.1, h.value above e.2)) =
      h.outcomes above
        (entries.flatMap fun e => [.key path e.1, .slot s!"{path}.{e.1.text}" e.2]) := by
  induction entries with
  | nil => rfl
  | cons e entries ih =>
      obtain ⟨k, x⟩ := e
      rw [List.map_cons, List.flatMap_cons, List.cons_append, List.singleton_append]
      cases k with
      | str name =>
          rw [Value.checkEntries, ih, outcomes_cons_ok rfl, Value.text]
          rfl
      | _ => rfl

/-- A container that the check is not inside of passes if all in it does. -/
theorem outcome_inside {path : String} {id : Fin n} (hid : id ∉ above) :
    h.outcome above (.slot path (.node id)) =
      h.outcomes (id :: above) ((h id).visits path) := by
  rw [outcome, value, if_neg hid]
  cases h id with
  | sequence access items => exact checkItems_map path items 0
  | mapping access entries => exact checkEntries_map path entries

end Outcomes

/-- Induction along the check: over the visits still to come, and for a container that the check is
not inside of over what is in it as well. -/
@[elab_as_elim]
theorem visits_induction (h : Heap n) {motive : List (Fin n) → List (Visit n) → Prop}
    (done : ∀ above, motive above [])
    (key : ∀ above path k rest, motive above rest → motive above (.key path k :: rest))
    (leaf : ∀ above path v hv rest, motive above rest →
      motive above (.slot path (.leaf v hv) :: rest))
    (cyclic : ∀ above path id rest, id ∈ above → motive above rest →
      motive above (.slot path (.node id) :: rest))
    (inside : ∀ above path id rest, id ∉ above → motive (id :: above) ((h id).visits path) →
      motive above rest → motive above (.slot path (.node id) :: rest))
    (above : List (Fin n)) (visits : List (Visit n)) : motive above visits := by
  induction hcard : (above.toFinset)ᶜ.card using Nat.strongRecOn
    generalizing above visits with
  | ind outside ih =>
      induction visits with
      | nil => exact done above
      | cons v rest ihrest =>
          match v with
          | .key path k => exact key above path k rest ihrest
          | .slot path (.leaf v hv) => exact leaf above path v hv rest ihrest
          | .slot path (.node id) =>
              by_cases hid : id ∈ above
              · exact cyclic above path id rest hid ihrest
              · have hfewer := card_outside_lt hid
                rw [hcard] at hfewer
                exact inside above path id rest hid (ih _ hfewer _ _ rfl) ihrest

/-- A run ends as the check of the values does, with the set it began with. -/
theorem Checks.eq {h : Heap n} {active left : Finset (Fin n)} {visits : List (Visit n)}
    {reported : Except EncodeError Unit} (hrun : h.Checks active visits reported left) :
    ∀ above : List (Fin n), above.toFinset = active →
      reported = h.outcomes above visits ∧ left = active := by
  induction hrun with
  | done => exact fun above _ => ⟨rfl, rfl⟩
  | text _ ih => exact ih
  | keyNotText hk => exact fun above _ => ⟨(outcomes_cons_error (outcome_keyNotText hk)).symm, rfl⟩
  | leaf hpass _ ih =>
      intro above habove
      rw [outcomes_cons_ok (outcome_leaf.trans hpass)]
      exact ih above habove
  | leafRejected hreject =>
      exact fun above _ => ⟨(outcomes_cons_error (outcome_leaf.trans hreject)).symm, rfl⟩
  | cyclic hid =>
      intro above habove
      rw [← habove, List.mem_toFinset] at hid
      exact ⟨(outcomes_cons_error (outcome_cyclic hid)).symm, rfl⟩
  | @inside active path id rest _ inner left hid _ _ ihinside ihrest =>
      intro above habove
      have hout : id ∉ above := by rwa [← List.mem_toFinset, habove]
      obtain ⟨hok, rfl⟩ := ihinside (id :: above) (by rw [List.toFinset_cons, habove])
      rw [Finset.erase_insert hid] at ihrest
      rw [outcomes_cons_ok ((outcome_inside hout).trans hok.symm)]
      exact ihrest above habove
  | @insideRejected active path id rest e inner hid _ ihinside =>
      intro above habove
      have hout : id ∉ above := by rwa [← List.mem_toFinset, habove]
      obtain ⟨herror, rfl⟩ := ihinside (id :: above) (by rw [List.toFinset_cons, habove])
      rw [outcomes_cons_error ((outcome_inside hout).trans herror.symm)]
      exact ⟨rfl, Finset.erase_insert hid⟩

/-- There is a run over any visits from inside of any containers. -/
theorem checks_outcomes (h : Heap n) (above : List (Fin n)) (visits : List (Visit n)) :
    h.Checks above.toFinset visits (h.outcomes above visits) above.toFinset := by
  induction above, visits using visits_induction h with
  | done above => exact .done
  | key above path k rest ih =>
      by_cases hk : ∃ name, k = .str name
      · obtain ⟨name, rfl⟩ := hk
        exact .text ih
      · rw [not_exists] at hk
        rw [outcomes_cons_error (outcome_keyNotText hk)]
        exact .keyNotText hk
  | leaf above path v hv rest ih =>
      cases hcheck : v.checkEncodable path with
      | ok =>
          rw [outcomes_cons_ok (outcome_leaf.trans hcheck)]
          exact .leaf hcheck ih
      | error e =>
          rw [outcomes_cons_error (outcome_leaf.trans hcheck)]
          exact .leafRejected hcheck
  | cyclic above path id rest hid _ =>
      rw [outcomes_cons_error (outcome_cyclic hid)]
      exact .cyclic (List.mem_toFinset.mpr hid)
  | inside above path id rest hid ihinside ihrest =>
      have hout : id ∉ above.toFinset := by rwa [List.mem_toFinset]
      have hrestore : (id :: above).toFinset.erase id = above.toFinset := by
        rw [List.toFinset_cons, Finset.erase_insert hout]
      cases hinside : h.outcomes (id :: above) ((h id).visits path) with
      | ok =>
          rw [outcomes_cons_ok ((outcome_inside hid).trans hinside)]
          rw [hinside, List.toFinset_cons] at ihinside
          refine .inside hout ihinside ?_
          rwa [Finset.erase_insert hout]
      | error e =>
          rw [outcomes_cons_error ((outcome_inside hid).trans hinside)]
          rw [hinside] at ihinside
          nth_rewrite 2 [← hrestore]
          rw [List.toFinset_cons] at ihinside ⊢
          exact .insideRejected hout ihinside

theorem checks_iff {h : Heap n} {above : List (Fin n)} {visits : List (Visit n)}
    {reported : Except EncodeError Unit} {left : Finset (Fin n)} :
    h.Checks above.toFinset visits reported left ↔
      reported = h.outcomes above visits ∧ left = above.toFinset := by
  constructor
  · exact fun hrun => hrun.eq above rfl
  · rintro ⟨rfl, rfl⟩
    exact checks_outcomes h above visits

/-- A run from inside of no container. -/
theorem checks_empty_iff {h : Heap n} {visits : List (Visit n)}
    {reported : Except EncodeError Unit} {left : Finset (Fin n)} :
    h.Checks ∅ visits reported left ↔ reported = h.outcomes [] visits ∧ left = ∅ := by
  rw [← List.toFinset_nil]
  exact checks_iff

end Heap

end FunctionPipeline

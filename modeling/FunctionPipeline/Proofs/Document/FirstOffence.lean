import Mathlib.Data.List.Lex
import FunctionPipeline.Proofs.Document.ObjectGraphs

/-!
What the encoder's check reports of a graph of objects: nothing where nothing offends, and the first
offence elsewhere, depth first and from left to right. Offences are told apart by their places, the
positions of the visits that lead to them, in lexicographic order.
-/

namespace FunctionPipeline

namespace Heap

variable {n : Nat} {h : Heap n}

/-! ### Offences -/

/-- What visit offends at a place, and how: one of the visits, or one inside of a container that
one of them enters. -/
inductive Offends (h : Heap n) :
    List (Fin n) → List (Visit n) → List Nat → Visit n → EncodeError → Prop
  | here {above visits i v e} (hat : visits[i]? = some v) (hoffence : v.offence? above = some e) :
      Offends h above visits [i] v e
  | inside {above visits i path id place v e} (hat : visits[i]? = some (.slot path (.node id)))
      (hid : id ∉ above) (hinside : Offends h (id :: above) ((h id).visits path) place v e) :
      Offends h above visits (i :: place) v e

def IsFirstOffence (h : Heap n) (above : List (Fin n)) (visits : List (Visit n))
    (place : List Nat) (v : Visit n) (e : EncodeError) : Prop :=
  h.Offends above visits place v e ∧
    ∀ other w cause, h.Offends above visits other w cause → ¬ List.Lex (· < ·) other place

section Offences

variable {above : List (Fin n)} {v w : Visit n} {rest visits : List (Visit n)}
  {place other : List Nat} {e cause : EncodeError} {path : String} {id : Fin n}

theorem offence?_entered (hid : id ∉ above) :
    (Visit.slot path (.node id)).offence? above = none := by
  rw [Visit.offence?, if_neg hid]

theorem not_offends_nil : ¬ h.Offends above visits [] v e := fun ho => nomatch ho

/-- One place has one offence. -/
theorem Offends.unique (hfirst : h.Offends above visits place v e)
    (hsecond : h.Offends above visits place w cause) : e = cause := by
  induction hfirst with
  | here hat hoffence =>
      cases hsecond with
      | here hat' hoffence' =>
          cases hat.symm.trans hat'
          exact Option.some.inj (hoffence.symm.trans hoffence')
      | inside _ _ hinside => exact absurd hinside not_offends_nil
  | inside hat _ hinside ih =>
      cases hsecond with
      | here => exact absurd hinside not_offends_nil
      | inside hat' _ hinside' =>
          cases hat.symm.trans hat'
          exact ih hinside'

theorem offends_succ {i : Nat} :
    h.Offends above (v :: rest) ((i + 1) :: place) w e ↔ h.Offends above rest (i :: place) w e := by
  constructor
  · intro ho
    cases ho with
    | here hat hoffence => exact .here (List.getElem?_cons_succ.symm.trans hat) hoffence
    | inside hat hid hinside => exact .inside (List.getElem?_cons_succ.symm.trans hat) hid hinside
  · intro ho
    cases ho with
    | here hat hoffence => exact .here (List.getElem?_cons_succ.trans hat) hoffence
    | inside hat hid hinside => exact .inside (List.getElem?_cons_succ.trans hat) hid hinside

/-- A visit that enters no container offends by itself or not at all. -/
theorem offends_zero_of_stays (hstays : ∀ path id, v = .slot path (.node id) → id ∈ above) :
    h.Offends above (v :: rest) (0 :: place) w e ↔
      place = [] ∧ w = v ∧ v.offence? above = some e := by
  constructor
  · intro ho
    cases ho with
    | here hat hoffence =>
        cases hat
        exact ⟨rfl, rfl, hoffence⟩
    | inside hat hid =>
        cases hat
        exact absurd (hstays _ _ rfl) hid
  · rintro ⟨rfl, rfl, hoffence⟩
    exact .here rfl hoffence

/-- A visit that enters a container offends by what is in it. -/
theorem offends_zero_of_enters (hid : id ∉ above) :
    h.Offends above (.slot path (.node id) :: rest) (0 :: place) w e ↔
      h.Offends (id :: above) ((h id).visits path) place w e := by
  constructor
  · intro ho
    cases ho with
    | here hat hoffence =>
        cases hat
        rw [offence?_entered hid] at hoffence
        cases hoffence
    | inside hat _ hinside =>
        cases hat
        exact hinside
  · exact .inside rfl hid

end Offences

/-! ### What is reported -/

/-- Whether an outcome is right: it is a pass where nothing offends, and the first offence
elsewhere. -/
def Reports (h : Heap n) (above : List (Fin n)) (visits : List (Visit n)) :
    Except EncodeError Unit → Prop
  | .ok () => ∀ place v e, ¬ h.Offends above visits place v e
  | .error e => ∃ place v, h.IsFirstOffence above visits place v e

section Reports

variable {above : List (Fin n)} {v : Visit n} {rest : List (Visit n)}

theorem reports_error_of_head {place : List Nat} {w : Visit n} {e : EncodeError}
    (hhead : h.Offends above (v :: rest) (0 :: place) w e)
    (hleast : ∀ other w cause, h.Offends above (v :: rest) (0 :: other) w cause →
      ¬ List.Lex (· < ·) other place) :
    h.Reports above (v :: rest) (.error e) := by
  refine ⟨0 :: place, w, hhead, fun other w cause hother hbefore => ?_⟩
  cases hbefore with
  | nil => exact not_offends_nil hother
  | cons hbefore => exact hleast _ w cause hother hbefore
  | rel hless => exact Nat.not_lt_zero _ hless

theorem reports_of_clean_head {reported : Except EncodeError Unit}
    (hclean : ∀ place w e, ¬ h.Offends above (v :: rest) (0 :: place) w e)
    (hrest : h.Reports above rest reported) : h.Reports above (v :: rest) reported := by
  -- with a clean head, places with an offence are those of the rest, one further
  have hshift : ∀ place w e, h.Offends above (v :: rest) place w e →
      ∃ i inner, place = (i + 1) :: inner ∧ h.Offends above rest (i :: inner) w e := by
    intro place w e ho
    match place with
    | [] => exact absurd ho not_offends_nil
    | 0 :: inner => exact absurd ho (hclean inner w e)
    | (i + 1) :: inner => exact ⟨i, inner, rfl, offends_succ.mp ho⟩
  cases reported with
  | ok =>
      intro place w e ho
      obtain ⟨i, inner, -, hinner⟩ := hshift place w e ho
      exact hrest _ _ _ hinner
  | error e =>
      obtain ⟨place, w, ho, hleast⟩ := hrest
      cases place with
      | nil => exact absurd ho not_offends_nil
      | cons j place =>
          refine ⟨(j + 1) :: place, w, offends_succ.mpr ho, fun other u cause hother hbefore => ?_⟩
          obtain ⟨i, inner, rfl, hinner⟩ := hshift other u cause hother
          apply hleast _ u cause hinner
          cases hbefore with
          | cons hbefore => exact .cons hbefore
          | rel hless => exact .rel (Nat.lt_of_succ_lt_succ hless)

/-- The offence of a key, told by whether it can be shown. -/
theorem ofKey_eq (k : Value) (path : String) :
    EncodeError.ofKey k path =
      if k.hasLongInteger then .fault .longInteger
      else .keyNotText k.typeName k.literal path := by
  unfold EncodeError.ofKey Value.shownLiteral
  cases k.hasLongInteger <;> rfl

theorem offence?_keyNotText {path : String} {k : Value} (hk : ∀ name, k ≠ .str name) :
    (Visit.key path k).offence? above = some (.ofKey k path) := by
  rw [ofKey_eq, Visit.offence?]
  · cases k.hasLongInteger <;> rfl
  · exact fun name => hk name

theorem outcome_of_stays (hstays : ∀ path id, v = .slot path (.node id) → id ∈ above) :
    h.outcome above v = (v.offence? above).elim (.ok ()) .error := by
  match v with
  | .key path k =>
      by_cases hk : ∃ name, k = .str name
      · obtain ⟨name, rfl⟩ := hk
        rfl
      · rw [not_exists] at hk
        rw [outcome_keyNotText hk, offence?_keyNotText hk]
        rfl
  | .slot path (.leaf v hv) =>
      rw [outcome_leaf]
      cases v with
      | float x =>
          simp only [Value.checkEncodable, Visit.offence?]
          split <;> rfl
      | sequence | mapping | enclosing => cases hv
      | _ => rfl
  | .slot path (.node id) =>
      have hid := hstays path id rfl
      rw [outcome_cyclic hid, Visit.offence?, if_pos hid]
      rfl

theorem reports_of_stays (hstays : ∀ path id, v = .slot path (.node id) → id ∈ above)
    (hrest : h.Reports above rest (h.outcomes above rest)) :
    h.Reports above (v :: rest) (h.outcomes above (v :: rest)) := by
  have hv := outcome_of_stays (h := h) hstays
  cases hoffence : v.offence? above with
  | none =>
      rw [hoffence] at hv
      rw [outcomes_cons_ok hv]
      refine reports_of_clean_head (fun place w e ho => ?_) hrest
      rw [offends_zero_of_stays hstays, hoffence] at ho
      cases ho.2.2
  | some e =>
      rw [hoffence] at hv
      rw [outcomes_cons_error hv]
      apply reports_error_of_head ((offends_zero_of_stays hstays).mpr ⟨rfl, rfl, hoffence⟩)
      exact fun _ _ _ _ hbefore => (nomatch hbefore)

theorem reports_of_enters {path : String} {id : Fin n} (hid : id ∉ above)
    (hinside : h.Reports (id :: above) ((h id).visits path)
      (h.outcomes (id :: above) ((h id).visits path)))
    (hrest : h.Reports above rest (h.outcomes above rest)) :
    h.Reports above (.slot path (.node id) :: rest)
      (h.outcomes above (.slot path (.node id) :: rest)) := by
  have hv : h.outcome above (.slot path (.node id)) = _ := outcome_inside hid
  cases houtcome : h.outcomes (id :: above) ((h id).visits path) with
  | ok =>
      rw [houtcome] at hinside hv
      rw [outcomes_cons_ok hv]
      refine reports_of_clean_head (fun place w e ho => ?_) hrest
      exact hinside place w e ((offends_zero_of_enters hid).mp ho)
  | error e =>
      rw [houtcome] at hinside hv
      rw [outcomes_cons_error hv]
      obtain ⟨place, w, ho, hleast⟩ := hinside
      apply reports_error_of_head ((offends_zero_of_enters hid).mpr ho)
      intro other u cause hother
      exact hleast other u cause ((offends_zero_of_enters hid).mp hother)

/-- The check of the values is right about any visits from inside of any containers. -/
theorem reports_outcomes (h : Heap n) (above : List (Fin n)) (visits : List (Visit n)) :
    h.Reports above visits (h.outcomes above visits) := by
  induction above, visits using visits_induction h with
  | done above => exact fun place w e ho => by cases ho with | _ hat => cases hat
  | key above path k rest ih => exact reports_of_stays (fun _ _ hv => nomatch hv) ih
  | leaf above path v hv rest ih => exact reports_of_stays (fun _ _ hv => nomatch hv) ih
  | cyclic above path id rest hid ih =>
      apply reports_of_stays _ ih
      rintro _ _ ⟨⟩
      exact hid
  | inside above path id rest hid ihinside ihrest => exact reports_of_enters hid ihinside ihrest

end Reports

section Outcomes

variable {above : List (Fin n)} {visits : List (Visit n)}

theorem outcomes_eq_ok_iff :
    h.outcomes above visits = .ok () ↔ ∀ place v e, ¬ h.Offends above visits place v e := by
  have hright := reports_outcomes h above visits
  constructor
  · intro hok
    rw [hok] at hright
    exact hright
  · intro hclean
    cases hout : h.outcomes above visits with
    | ok => rfl
    | error e =>
        rw [hout] at hright
        obtain ⟨place, v, ho, -⟩ := hright
        exact absurd ho (hclean place v e)

theorem outcomes_eq_error_iff {e : EncodeError} :
    h.outcomes above visits = .error e ↔
      ∃ place v, h.IsFirstOffence above visits place v e := by
  have hright := reports_outcomes h above visits
  constructor
  · intro herror
    rw [herror] at hright
    exact hright
  · rintro ⟨place, v, ho, hleast⟩
    cases hout : h.outcomes above visits with
    | ok =>
        rw [hout] at hright
        exact absurd ho (hright place v e)
    | error cause =>
        rw [hout] at hright
        obtain ⟨other, w, hother, hfirst⟩ := hright
        obtain rfl : place = other :=
          Std.Trichotomous.trichotomous place other (hfirst place v e ho)
            (hleast other w cause hother)
        rw [ho.unique hother]

end Outcomes

end Heap

end FunctionPipeline

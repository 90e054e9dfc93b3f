import FunctionPipeline.Proofs.Invocation.NormalForm
import FunctionPipeline.Proofs.Reconciliation.Names
import FunctionPipeline.Proofs.State.Equality

/-!
Equality of plans. Two runs from one seed that come to equal composed resources wrote the same new
names, perhaps in another order, and names are put in order before anything is planned. So the plans
for both differ in the composite at most, and if the names of the seed have no order, both fail
alike.
-/

namespace FunctionPipeline

/-- Only the first of equal values is kept. -/
theorem nodup_eraseDups {α : Type} [BEq α] [LawfulBEq α] (xs : List α) : xs.eraseDups.Nodup := by
  match xs with
  | [] => simp
  | x :: xs =>
      rw [List.eraseDups_cons, List.nodup_cons, List.mem_eraseDups]
      exact ⟨by simp, nodup_eraseDups _⟩
termination_by xs.length
decreasing_by
  exact Nat.lt_succ_of_le (List.length_filter_le _ _)

namespace Plan

def body (p : Plan) : Entries := (p.composite.map Resource.body).getD []

/-- Plans that agree but for the composite's status, and whether one is written at all. -/
structure SameBesideStatus (p q : Plan) : Prop where
  create : p.create = q.create
  update : p.update = q.update
  delete : p.delete = q.delete
  desired : Resources.Same p.desired q.desired
  details : (Value.object p.details).equals (.object q.details) = true
  retry : p.retry = q.retry
  body : Entries.erase p.body (.str "status") = Entries.erase q.body (.str "status")

structure Same (p q : Plan) : Prop extends SameBesideStatus p q where
  composite : Option.Rel Resource.Same p.composite q.composite

def compositeFor (observed : State) (response : Response) : Option Resource :=
  if response.statusUpdates.isEmpty then observed.composite
  else some (updated observed.composite response)

def withNames (observed : State) (response : Response) (create update delete : List Value) :
    Plan where
  create
  update
  delete
  desired := response.desired.resources
  composite := compositeFor observed response
  details := response.connectionDetails

/-- Both plans are made and related, or neither is made for the same cause. -/
inductive Outcome (R : Plan → Plan → Prop) : Except Fault Plan → Except Fault Plan → Prop
  | planned {p q : Plan} (h : R p q) : Outcome R (.ok p) (.ok q)
  | failed (cause : Fault) : Outcome R (.error cause) (.error cause)

def plannedBody (outcome : Except Fault Plan) : Entries := (outcome.toOption.map body).getD []

theorem Outcome.equals_plannedBody {first second : Except Fault Plan}
    (h : Outcome Same first second) :
    (Value.object (plannedBody first)).equals (.object (plannedBody second)) = true := by
  cases h with
  | failed => exact Entries.isProper_nil.equals_self
  | planned hsame => exact Resource.equals_body_of_rel hsame.composite

/-- Names that are in order in the same way are so after others. -/
theorem inOrder_append_congr {names others : List Value} (h : inOrder names = inOrder others)
    (before : List Value) : inOrder (before ++ names) = inOrder (before ++ others) := by
  induction before with
  | nil => exact h
  | cons name rest ih => rw [List.cons_append, List.cons_append, inOrder, inOrder, ih]

theorem inOrder_perm_texts {names others : List String} (h : names.Perm others) :
    inOrder (names.map .str) = inOrder (others.map .str) := by
  have hsorted : names.insertionSort (· ≤ ·) = others.insertionSort (· ≤ ·) := by
    refine List.Perm.eq_of_pairwise (fun a b _ _ => le_antisymm) (List.pairwise_insertionSort _ _)
      (List.pairwise_insertionSort _ _) ?_
    exact ((List.perm_insertionSort _ _).trans h).trans (List.perm_insertionSort _ _).symm
  rw [inOrder_texts, inOrder_texts, hsorted]

/-- Of names before and texts after, any choice is put in the same order as with the texts in
another order. -/
theorem inOrder_filter_append {names others : List String} (h : names.Perm others)
    (before : List Value) (p : Value → Bool) :
    inOrder ((before ++ names.map Value.str).filter p) =
      inOrder ((before ++ others.map Value.str).filter p) := by
  rw [List.filter_append, List.filter_append, List.filter_map, List.filter_map]
  exact inOrder_append_congr (inOrder_perm_texts (h.filter _)) _

theorem hasName_perm {rs ss : Resources} (h : (Entries.keys rs).Perm (Entries.keys ss))
    (name : Value) : hasName rs name = hasName ss name := by
  rw [hasName, hasName, Bool.eq_iff_iff, Entries.get?_isSome_iff, Entries.get?_isSome_iff]
  simp only [h.mem_iff]

end Plan

namespace Builder

/-- A new name is none of the seed's. -/
theorem not_mem_of_newName {seed : Resources} {calls : List Call} {name : String}
    (h : name ∈ newNames seed calls) : .str name ∉ Entries.keys seed := by
  rw [newNames, List.mem_eraseDups, List.mem_filter, Option.isNone_iff_eq_none,
    Entries.field?_eq_none_iff] at h
  exact h.2

/-- Runs from one seed that come to equal resources wrote the same new names. -/
theorem newNames_perm {seed : State} {calls others : List Call} {first second : Response}
    (hfirst : NormalForm seed calls first) (hsecond : NormalForm seed others second)
    (h : Resources.Same first.desired.resources second.desired.resources) :
    (newNames seed.resources calls).Perm (newNames seed.resources others) := by
  have hsubset : newNames seed.resources calls ⊆ newNames seed.resources others := by
    intro name hname
    have hkey : Value.str name ∈ Entries.keys first.desired.resources := by
      rw [hfirst.order, List.mem_append]
      exact Or.inr (List.mem_map_of_mem hname)
    obtain ⟨e, he, hname'⟩ := List.mem_map.mp hkey
    obtain ⟨s, hs, -⟩ := h.under e he
    rw [hname'] at hs
    have hthere : Value.str name ∈ Entries.keys second.desired.resources := by
      by_contra hnot
      have hnone := (Entries.field?_eq_none_iff _ _).mpr hnot
      rw [Entries.field?, hs] at hnone
      cases hnone
    rw [hsecond.order, List.mem_append] at hthere
    simpa [not_mem_of_newName hname] using hthere
  have hlength : (newNames seed.resources others).length =
      (newNames seed.resources calls).length := by
    have hcount := h.length
    have hkeys := congrArg List.length hfirst.order
    have hkeys' := congrArg List.length hsecond.order
    simp only [Entries.keys, List.length_append, List.length_map] at hkeys hkeys'
    omega
  exact ((nodup_eraseDups _).subperm hsubset).perm_of_length_le hlength.le

end Builder

namespace Plan

open Builder

/-- Plans for runs from one seed that come to equal resources are made of the same names. They are
related in a way if they are whatever these names are. -/
theorem outcome_of_same {seed observed : State} {calls others : List Call} {first second : Response}
    (hfirst : NormalForm seed calls first) (hsecond : NormalForm seed others second)
    (hok : first.failed = false) (hok' : second.failed = false)
    (h : Resources.Same first.desired.resources second.desired.resources)
    {R : Plan → Plan → Prop}
    (hplans : ∀ create update delete : List Value,
      R (withNames observed first create update delete)
        (withNames observed second create update delete)) :
    Outcome R (ofResponse observed first) (ofResponse observed second) := by
  have hnew := newNames_perm hfirst hsecond h
  have hkeys : (Entries.keys first.desired.resources).Perm
      (Entries.keys second.desired.resources) := by
    rw [hfirst.order, hsecond.order]
    exact (hnew.map _).append_left _
  have hname := hasName_perm hkeys
  have hwanted (p : Value → Bool) :
      inOrder ((Entries.keys first.desired.resources).filter p) =
        inOrder ((Entries.keys second.desired.resources).filter p) := by
    rw [hfirst.order, hsecond.order]
    exact inOrder_filter_append hnew _ p
  rw [ofResponse, ofResponse, hok, hok']
  simp only [Bool.false_eq_true, if_false, hwanted, hname, bind, Except.bind, pure, Except.pure]
  -- the same three lists of names are put in order for both
  split
  · exact .failed _
  · split
    · exact .failed _
    · split
      · exact .failed _
      · exact .planned (hplans _ _ _)

end Plan

end FunctionPipeline

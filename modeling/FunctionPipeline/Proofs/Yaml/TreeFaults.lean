import FunctionPipeline.Proofs.Yaml.ScalarFaults
import FunctionPipeline.Yaml.Document

/-!
Which nodes of a document have no value: scalars whose texts are no values of their tags, and
mappings that stand for such texts. The value of a document without aliases has no other faults.
-/

namespace FunctionPipeline.Yaml

namespace Node

inductive Holds (root : Node) : Node → Prop where
  | root : Holds root root
  | item {anchor : Option (List Char)} {tag : Tag} {number : Nat} {items : List Node} {x : Node} :
      Holds root (.sequence anchor tag number items) → x ∈ items → Holds root x
  | key {anchor : Option (List Char)} {tag : Tag} {number : Nat} {pairs : List (Node × Node)}
      {k v : Node} : Holds root (.mapping anchor tag number pairs) → (k, v) ∈ pairs → Holds root k
  | value {anchor : Option (List Char)} {tag : Tag} {number : Nat} {pairs : List (Node × Node)}
      {k v : Node} : Holds root (.mapping anchor tag number pairs) → (k, v) ∈ pairs → Holds root v

def HasText (root : Node) (text : List Char) : Prop :=
  ∃ anchor tag number, root.Holds (.scalar anchor tag number text)

/-- A node of a document has no value, which is a fault. -/
inductive Refuses (root : Node) : Fault → Prop where
  | scalar {anchor : Option (List Char)} {tag : Tag} {number origin : Nat} {text : List Char}
      {cause : Fault} : root.Holds (.scalar anchor tag number text) →
      ScalarValue.ofText tag origin text = .error (.fault cause) → Refuses root cause
  | mapping {anchor : Option (List Char)} {tag : Tag} {number origin : Nat}
      {pairs : List (Node × Node)} {text : List Char} {cause : Fault} :
      root.Holds (.mapping anchor tag number pairs) → root.HasText text →
      ScalarValue.ofMapping tag origin text = .error (.fault cause) → Refuses root cause
  /-- Only a mapping with aliases in it can stand for its own text. -/
  | endless {anchor : Option (List Char)} {tag : Tag} {number : Nat}
      {pairs : List (Node × Node)} : root.Holds (.mapping anchor tag number pairs) →
      tag = .value ∨ ScalarValue.isScalarTag tag = true → root.hasAlias = true →
      Refuses root .endless

theorem Refuses.ofScalar {root : Node} {cause : Fault} (h : root.Refuses cause) :
    cause.OfScalar := by
  cases h with
  | scalar _ hcause => exact (ScalarValue.scalarFaults_ofText _ _ _).fault cause hcause
  | mapping _ _ hcause => exact (ScalarValue.scalarFaults_ofMapping _ _ _).fault cause hcause
  | endless _ _ _ => exact .endless

mutual

theorem hasText_of_text? {root : Node} {text : List Char} :
    ∀ node : Node, root.Holds node → text? node = some text → root.HasText text
  | .alias _, _, htext => by cases htext
  | .scalar anchor tag number _, h, htext => by
      cases htext
      exact ⟨anchor, tag, number, h⟩
  | .sequence .., _, htext => by cases htext
  | .mapping _ _ _ pairs, h, htext =>
      hasText_of_textIn? pairs (fun _ hp => h.value hp) htext

theorem hasText_of_textIn? {root : Node} {text : List Char} :
    ∀ pairs : List (Node × Node), (∀ p ∈ pairs, root.Holds p.2) → textIn? pairs = some text →
      root.HasText text
  | [], _, htext => by cases htext
  | (k, v) :: ps, h, htext => by
      rw [textIn?] at htext
      split at htext
      · exact hasText_of_text? v (h (k, v) (by simp)) htext
      · exact hasText_of_textIn? ps (fun p hp => h p (by simp [hp])) htext

end

section Levels

variable {P : Option ReadError → Prop}

/-- What is true of all errors of two parts of a document is true of those of both together. -/
theorem forall_levels {a b : List (Option ReadError)} (ha : ∀ e ∈ a, P e) (hb : ∀ e ∈ b, P e) :
    ∀ e ∈ levels a b, P e := by
  induction a generalizing b with
  | nil => exact hb
  | cons e a ih =>
      cases b with
      | nil => exact ha
      | cons e' b =>
          have hfirst : P (firstOf e e') := by
            cases e with
            | none => exact hb e' (by simp)
            | some e => exact ha (some e) (by simp)
          have hrest : ∀ d ∈ levels a b, P d :=
            ih (fun d hd => ha d (by simp [hd])) fun d hd => hb d (by simp [hd])
          intro d hd
          rcases List.mem_cons.mp hd with rfl | hmem
          · exact hfirst
          · exact hrest d hmem

theorem forall_filled (hnone : P none) (v : Value) {content : List (List (Option ReadError))}
    (h : ∀ errors ∈ content, ∀ e ∈ errors, P e) : ∀ e ∈ (Built.filled v content).errors, P e := by
  have hfold (before : List (Option ReadError)) (hbefore : ∀ e ∈ before, P e) :
      ∀ e ∈ content.foldl levels before, P e := by
    induction content generalizing before with
    | nil => exact hbefore
    | cons errors content ih =>
        exact ih (fun e he => h e (by simp [he])) _
          (forall_levels hbefore (h errors (by simp)))
  intro e he
  rcases List.mem_cons.mp he with rfl | hmem
  · exact hnone
  · exact hfold [] (fun e he => by cases he) e hmem

theorem forall_own (hnone : P none) {b : Built} (h : ∀ e ∈ b.errors, P e) : P b.own := by
  unfold Built.own
  cases herrors : b.errors with
  | nil => exact hnone
  | cons e errors => exact h e (by simp [herrors])

end Levels

def Tells (q : Fault → Prop) (e : Option ReadError) : Prop :=
  ∀ cause, e = some (.fault cause) → q cause

/-- Errors of which none is a fault but those with a property. -/
def Reports (q : Fault → Prop) (errors : List (Option ReadError)) : Prop := ∀ e ∈ errors, Tells q e

variable {q : Fault → Prop}

@[simp] theorem tells_none : Tells q none := by
  intro cause h
  cases h

@[simp] theorem tells_malformed : Tells q (some .malformed) := by
  intro cause h
  cases h

theorem Tells.firstOf {a b : Option ReadError} (ha : Tells q a) (hb : Tells q b) :
    Tells q (firstOf a b) := by
  cases a with
  | none => exact hb
  | some e => exact ha

@[simp] theorem reports_nil : Reports q [] := by
  intro e h
  cases h

@[simp] theorem reports_cons {e : Option ReadError} {errors : List (Option ReadError)} :
    Reports q (e :: errors) ↔ Tells q e ∧ Reports q errors := List.forall_mem_cons

theorem Reports.drop {errors : List (Option ReadError)} (h : Reports q errors) (n : Nat) :
    Reports q (errors.drop n) := by
  intro e he
  exact h e (List.mem_of_mem_drop he)

theorem reports_ofScalar {v : Except ReadError Value} (h : Yields (fun _ => True) q v) :
    Reports q (Built.ofScalar v).errors := by
  cases v with
  | ok v => exact reports_nil
  | error e =>
      refine reports_cons.mpr ⟨?_, reports_nil⟩
      intro cause hcause
      cases hcause
      exact h.fault cause rfl

structure PairReports (q : Fault → Prop) (p : BuiltPair) : Prop where
  key : Reports q p.key.errors
  value : Reports q p.value.errors

theorem PairReports.errors {p : BuiltPair} (h : PairReports q p) : Reports q p.errors := by
  refine reports_cons.mpr ⟨?_, forall_levels (h.key.drop 1) (h.value.drop 1)⟩
  apply (forall_own tells_none h.key).firstOf
  apply Tells.firstOf _ (forall_own tells_none h.value)
  split
  · exact tells_none
  · exact tells_malformed

theorem PairReports.listedErrors {p : BuiltPair} (h : PairReports q p) :
    Reports q p.listedErrors := forall_levels h.key h.value

theorem reports_contents {pairs : List BuiltPair} (h : ∀ p ∈ pairs, PairReports q p) :
    ∀ errors ∈ pairs.map BuiltPair.errors, Reports q errors := by
  intro errors herrors
  obtain ⟨p, hp, rfl⟩ := List.mem_map.mp herrors
  exact (h p hp).errors

theorem reports_pairs {pairs : List BuiltPair} (broken : Bool) (h : ∀ p ∈ pairs, PairReports q p) :
    Reports q (Built.pairs pairs broken).errors := by
  refine forall_filled tells_none _ ?_
  intro errors herrors
  rcases List.mem_append.mp herrors with hpair | hbroken
  · obtain ⟨p, hp, rfl⟩ := List.mem_map.mp hpair
    exact (h p hp).listedErrors
  · cases broken with
    | false => cases hbroken
    | true =>
        cases List.mem_singleton.mp hbroken
        exact reports_cons.mpr ⟨tells_malformed, reports_nil⟩

theorem reports_failed : Reports q (Built.failed .malformed).errors := by simp [Built.failed]

theorem reports_unfilled : Reports q (Built.unfilled .malformed).errors := by simp [Built.unfilled]

theorem reports_ofPairs (tag : Tag) {found : Except ReadError (List BuiltPair)}
    (h : Yields (fun pairs => ∀ p ∈ pairs, PairReports q p) q found) :
    Reports q (Built.ofPairs tag found).errors := by
  cases found with
  | error e =>
      refine reports_cons.mpr ⟨tells_none, reports_cons.mpr ⟨?_, reports_nil⟩⟩
      intro cause hcause
      cases hcause
      exact h.fault cause rfl
  | ok pairs =>
      have hpairs := reports_contents (h.result pairs rfl)
      unfold Built.ofPairs
      simp only
      split
      · exact forall_filled tells_none _ hpairs
      · exact forall_filled tells_none _ hpairs

theorem reports_equalsKey (k : Node) : Reports q (equalsKey k).errors := by
  unfold equalsKey
  split
  · exact reports_nil
  · exact reports_failed

section Build

variable {root : Node}

mutual

theorem build_reports :
    ∀ node : Node, root.Holds node → Reports root.Refuses (build node).errors
  | .alias _, _ => reports_failed
  | .scalar anchor tag number text, h => by
      have htext : Yields (fun _ => True) root.Refuses (ScalarValue.ofText tag number text) :=
        ⟨fun _ _ => trivial, fun _ hcause => .scalar h hcause⟩
      unfold build
      split
      · exact reports_unfilled
      · exact reports_unfilled
      · exact reports_unfilled
      · exact reports_unfilled
      · exact reports_unfilled
      · exact reports_ofScalar htext
  | .sequence anchor tag number items, h => by
      have hitems : ∀ x ∈ items, root.Holds x := fun x hx => h.item hx
      unfold build
      split
      · refine forall_filled tells_none _ ?_
        intro errors herrors
        obtain ⟨b, hb, rfl⟩ := List.mem_map.mp herrors
        exact buildItems_reports items hitems b hb
      · exact reports_pairs _ (listedPairs_report items hitems)
      · exact reports_pairs _ (listedPairs_report items hitems)
      · exact reports_unfilled
      · exact reports_unfilled
      · exact reports_failed
  | .mapping anchor tag number pairs, h => by
      have hpairs : ∀ p ∈ pairs, root.Holds p.1 ∧ root.Holds p.2 :=
        fun p hp => ⟨h.key hp, h.value hp⟩
      have hall : Yields (fun found => ∀ p ∈ found, PairReports root.Refuses p) root.Refuses
          (do return (← mergedPairs pairs) ++ ownPairs pairs) := by
        apply (mergedPairs_yields pairs hpairs).bind
        intro merged hmerged
        exact Yields.pure_iff.mpr
          (List.forall_mem_append.mpr ⟨hmerged, ownPairs_report pairs hpairs⟩)
      unfold build
      split
      · exact reports_ofPairs _ hall
      · exact reports_ofPairs _ hall
      · exact reports_unfilled
      · exact reports_unfilled
      · exact reports_unfilled
      · split
        · exact reports_failed
        · split
          next text htext =>
            have hheld := hasText_of_textIn? pairs (fun p hp => (hpairs p hp).2) htext
            apply reports_ofScalar
            exact ⟨fun _ _ => trivial, fun _ hcause => .mapping h hheld hcause⟩
          next => exact reports_failed

theorem buildItems_reports :
    ∀ items : List Node, (∀ x ∈ items, root.Holds x) →
      ∀ b ∈ buildItems items, Reports root.Refuses b.errors
  | [], _, b, hb => by cases hb
  | x :: xs, h, b, hb => by
      rw [buildItems] at hb
      rcases List.mem_cons.mp hb with rfl | hmem
      · exact build_reports x (h x (by simp))
      · exact buildItems_reports xs (fun y hy => h y (by simp [hy])) b hmem

theorem ownPairs_report :
    ∀ pairs : List (Node × Node), (∀ p ∈ pairs, root.Holds p.1 ∧ root.Holds p.2) →
      ∀ p ∈ ownPairs pairs, PairReports root.Refuses p
  | [], _, p, hp => by cases hp
  | (k, v) :: ps, h, p, hp => by
      obtain ⟨hk, hv⟩ := h (k, v) (by simp)
      have hrest := ownPairs_report ps fun p hp => h p (by simp [hp])
      have hvalue := build_reports v hv
      rw [ownPairs] at hp
      split at hp
      · exact hrest p hp
      · rcases List.mem_cons.mp hp with rfl | hmem
        · exact ⟨reports_equalsKey k, hvalue⟩
        · exact hrest p hmem
      · rcases List.mem_cons.mp hp with rfl | hmem
        · exact ⟨build_reports k hk, hvalue⟩
        · exact hrest p hmem

theorem mergedPairs_yields :
    ∀ pairs : List (Node × Node), (∀ p ∈ pairs, root.Holds p.1 ∧ root.Holds p.2) →
      Yields (fun found => ∀ p ∈ found, PairReports root.Refuses p) root.Refuses
        (mergedPairs pairs)
  | [], _ => Yields.ok_iff.mpr fun p hp => by cases hp
  | (k, v) :: ps, h => by
      have hrest := mergedPairs_yields ps fun p hp => h p (by simp [hp])
      rw [mergedPairs]
      split
      · apply (mergedFrom_yields v (h (k, v) (by simp)).2).bind
        intro first hfirst
        apply hrest.bind
        intro others hothers
        exact Yields.pure_iff.mpr (List.forall_mem_append.mpr ⟨hfirst, hothers⟩)
      · apply hrest.bind
        intro others hothers
        exact Yields.pure_iff.mpr hothers

theorem mergedFrom_yields :
    ∀ node : Node, root.Holds node →
      Yields (fun found => ∀ p ∈ found, PairReports root.Refuses p) root.Refuses
        (mergedFrom node)
  | .alias _, _ => Yields.malformed
  | .scalar .., _ => Yields.malformed
  | .mapping _ _ _ pairs, h => by
      have hpairs : ∀ p ∈ pairs, root.Holds p.1 ∧ root.Holds p.2 :=
        fun p hp => ⟨h.key hp, h.value hp⟩
      rw [mergedFrom]
      apply (mergedPairs_yields pairs hpairs).bind
      intro merged hmerged
      exact Yields.pure_iff.mpr
        (List.forall_mem_append.mpr ⟨hmerged, ownPairs_report pairs hpairs⟩)
  | .sequence _ _ _ items, h => by
      rw [mergedFrom]
      apply (mergedFromItems_yields items fun x hx => h.item hx).bind
      intro found hfound
      apply Yields.pure_iff.mpr
      intro p hp
      obtain ⟨pairs, hpairs, hmem⟩ := List.mem_flatten.mp hp
      exact hfound pairs (List.mem_reverse.mp hpairs) p hmem

theorem mergedFromItems_yields :
    ∀ items : List Node, (∀ x ∈ items, root.Holds x) →
      Yields (fun found => ∀ pairs ∈ found, ∀ p ∈ pairs, PairReports root.Refuses p) root.Refuses
        (mergedFromItems items)
  | [], _ => Yields.ok_iff.mpr fun p hp => by cases hp
  | .alias _ :: _, _ => Yields.malformed
  | .scalar .. :: _, _ => Yields.malformed
  | .sequence .. :: _, _ => Yields.malformed
  | .mapping anchor tag number pairs :: xs, h => by
      have hheld := h (.mapping anchor tag number pairs) (by simp)
      have hpairs : ∀ p ∈ pairs, root.Holds p.1 ∧ root.Holds p.2 :=
        fun p hp => ⟨hheld.key hp, hheld.value hp⟩
      rw [mergedFromItems]
      apply (mergedPairs_yields pairs hpairs).bind
      intro merged hmerged
      apply (mergedFromItems_yields xs fun x hx => h x (by simp [hx])).bind
      intro others hothers
      have hfirst : ∀ p ∈ merged ++ ownPairs pairs, PairReports root.Refuses p :=
        List.forall_mem_append.mpr ⟨hmerged, ownPairs_report pairs hpairs⟩
      exact Yields.pure_iff.mpr (List.forall_mem_cons.mpr ⟨hfirst, hothers⟩)

theorem listedPairs_report :
    ∀ items : List Node, (∀ x ∈ items, root.Holds x) →
      ∀ p ∈ listedPairs items, PairReports root.Refuses p
  | [], _, p, hp => by cases hp
  | .alias _ :: _, _, p, hp => by cases hp
  | .scalar .. :: _, _, p, hp => by cases hp
  | .sequence .. :: _, _, p, hp => by cases hp
  | .mapping _ _ _ [] :: _, _, p, hp => by cases hp
  | .mapping _ _ _ (_ :: _ :: _) :: _, _, p, hp => by cases hp
  | .mapping anchor tag number [(k, v)] :: xs, h, p, hp => by
      have hheld := h (.mapping anchor tag number [(k, v)]) (by simp)
      have hk : root.Holds k := hheld.key (List.mem_singleton_self (k, v))
      have hv : root.Holds v := hheld.value (List.mem_singleton_self (k, v))
      rw [listedPairs] at hp
      rcases List.mem_cons.mp hp with rfl | hmem
      · exact ⟨build_reports k hk, build_reports v hv⟩
      · exact listedPairs_report xs (fun x hx => h x (by simp [hx])) p hmem

end

/-- The value of a document without aliases has no faults but those of its nodes. -/
theorem treeValue_yields (root : Node) :
    Yields (fun _ => True) root.Refuses root.treeValue := by
  have hreports := build_reports root .root
  have hfold (errors : List (Option ReadError)) (before : Option ReadError)
      (hbefore : Tells root.Refuses before) (h : Reports root.Refuses errors) :
      Tells root.Refuses (errors.foldl firstOf before) := by
    induction errors generalizing before with
    | nil => exact hbefore
    | cons e errors ih =>
        obtain ⟨he, herrors⟩ := reports_cons.mp h
        exact ih _ (hbefore.firstOf he) herrors
  have htold := hfold _ none tells_none hreports
  unfold treeValue
  simp only
  split
  next e he =>
    rw [he] at htold
    cases e with
    | malformed => exact Yields.malformed
    | fault cause => exact Yields.fault_iff.mpr (htold cause rfl)
  next => exact Yields.ok_iff.mpr trivial

end Build

end Node

end FunctionPipeline.Yaml

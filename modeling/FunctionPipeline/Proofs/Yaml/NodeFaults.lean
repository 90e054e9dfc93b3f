import FunctionPipeline.Yaml.Node
import FunctionPipeline.Proofs.Yaml.ScalarFaults

/-!
Reading nodes has no faults of its own: where it ends in one, a token among those it was given
breaks off with it. What is left over after a node are tokens among those given, too.
-/

namespace FunctionPipeline.Yaml.Node

variable {α β : Type} {all ts : List Token}

/-- A reading of some of the tokens `all` that leaves others of them. -/
abbrev Within (all : List Token) (reading : Except ReadError (α × List Token)) : Prop :=
  Yields (fun found => found.2 ⊆ all) (fun cause => .unreadable cause ∈ all) reading

/-- What is read can be put into something else. -/
theorem Within.put {reading : Except ReadError (α × List Token)} (h : Within all reading)
    (f : α → β) : Within all (do
      let (others, rest) ← reading
      return (f others, rest)) :=
  h.bind fun _ hfound => Yields.pure_iff.mpr hfound

theorem unexpected_within {p : α → Prop} (h : ts ⊆ all) :
    Yields p (fun cause => .unreadable cause ∈ all) (unexpected ts) := by
  unfold unexpected
  split
  · exact Yields.fault_iff.mpr (h (by simp))
  · exact Yields.malformed

theorem tagName_within {p : List Char → Prop} {q : Fault → Prop} (handles : Handles)
    (handle : Option (List Char)) (suffix : List Char) (h : ∀ name, p name) :
    Yields p q (tagName handles handle suffix) := by
  unfold tagName
  split
  · exact Yields.ok_iff.mpr (h _)
  · split
    · exact Yields.ok_iff.mpr (h _)
    · exact Yields.malformed

theorem properties_within (handles : Handles) (h : ts ⊆ all) : Within all (properties handles ts) := by
  unfold properties
  split
  next name handle suffix rest =>
    apply (tagName_within handles handle suffix fun _ => trivial).bind
    intro tag _
    exact Yields.pure_iff.mpr (List.cons_subset.mp (List.cons_subset.mp h).2).2
  next handle suffix name rest =>
    apply (tagName_within handles handle suffix fun _ => trivial).bind
    intro tag _
    exact Yields.pure_iff.mpr (List.cons_subset.mp (List.cons_subset.mp h).2).2
  next => exact Yields.fault_iff.mpr (h (by simp))
  next => exact Yields.fault_iff.mpr (h (by simp))
  next => exact Yields.ok_iff.mpr (List.cons_subset.mp h).2
  next handle suffix rest _ _ =>
    apply (tagName_within handles handle suffix fun _ => trivial).bind
    intro tag _
    exact Yields.pure_iff.mpr (List.cons_subset.mp h).2
  next => exact Yields.ok_iff.mpr h

theorem absent_within (p : Properties) (number : Nat) (h : ts ⊆ all) :
    Within all (absent p number ts) := by
  unfold absent
  split
  · exact Yields.fault_iff.mpr (h (by simp))
  · split
    · exact Yields.ok_iff.mpr h
    · exact unexpected_within h

structure RulesWithin (handles : Handles) (all : List Token) (fuel : Nat) : Prop where
  front : ∀ allowed ts, ts ⊆ all → Within all (ofFront handles allowed fuel ts)
  blockItems : ∀ ts, ts ⊆ all → Within all (blockItems handles fuel ts)
  indentlessItems : ∀ ts, ts ⊆ all → Within all (indentlessItems handles fuel ts)
  blockPart : ∀ ts, ts ⊆ all → Within all (blockPart handles fuel ts)
  blockPairs : ∀ ts, ts ⊆ all → Within all (blockPairs handles fuel ts)
  flowItems : ∀ first ts, ts ⊆ all → Within all (flowItems handles first fuel ts)
  flowPairs : ∀ first ts, ts ⊆ all → Within all (flowPairs handles first fuel ts)

namespace RulesWithin

variable {handles : Handles} {fuel : Nat}

/-- A node is read in front of tokens among those given, and what follows it goes on. -/
theorem front_bind (ih : RulesWithin handles all fuel)
    {next : Node × List Token → Except ReadError (α × List Token)}
    (hnext : ∀ node rest, rest ⊆ all → Within all (next (node, rest))) (allowed : Allowed)
    (h : ts ⊆ all) : Within all (ofFront handles allowed fuel ts >>= next) :=
  (ih.front allowed ts h).bind fun found hfound => hnext found.1 found.2 hfound

theorem front_succ (ih : RulesWithin handles all fuel) (allowed : Allowed) (h : ts ⊆ all) :
    Within all (ofFront handles allowed (fuel + 1) ts) := by
  unfold ofFront
  split
  next hfuel => cases hfuel
  next => exact Yields.ok_iff.mpr (List.cons_subset.mp h).2
  next hfuel _ =>
    cases hfuel
    apply (properties_within handles h).bind
    rintro ⟨p, rest⟩ hrest
    simp only at hrest ⊢
    split
    · split
      · apply (ih.indentlessItems _ hrest).bind
        intro found hfound
        exact Yields.pure_iff.mpr hfound
      · exact absent_within p _ hrest
    · exact Yields.pure_iff.mpr (List.cons_subset.mp hrest).2
    · apply (ih.flowItems true _ (List.cons_subset.mp hrest).2).bind
      intro found hfound
      exact Yields.pure_iff.mpr hfound
    · apply (ih.flowPairs true _ (List.cons_subset.mp hrest).2).bind
      intro found hfound
      exact Yields.pure_iff.mpr hfound
    · split
      · exact absent_within p _ hrest
      · apply (ih.blockItems _ (List.cons_subset.mp hrest).2).bind
        intro found hfound
        exact Yields.pure_iff.mpr hfound
    · split
      · exact absent_within p _ hrest
      · apply (ih.blockPairs _ (List.cons_subset.mp hrest).2).bind
        intro found hfound
        exact Yields.pure_iff.mpr hfound
    · exact absent_within p _ hrest

theorem blockItems_succ (ih : RulesWithin handles all fuel) (h : ts ⊆ all) :
    Within all (Node.blockItems handles (fuel + 1) ts) := by
  have hothers (first : Node) (rest : List Token) (hrest : rest ⊆ all) :=
    (ih.blockItems rest hrest).put fun others => first :: others
  unfold Node.blockItems
  split
  next hfuel => cases hfuel
  next hfuel =>
    cases hfuel
    have hrest := (List.cons_subset.mp h).2
    simp only
    split
    · exact hothers blank _ hrest
    · exact hothers blank _ hrest
    · exact ih.front_bind hothers _ hrest
  next => exact Yields.ok_iff.mpr (List.cons_subset.mp h).2
  next => exact unexpected_within h

theorem indentlessItems_succ (ih : RulesWithin handles all fuel) (h : ts ⊆ all) :
    Within all (Node.indentlessItems handles (fuel + 1) ts) := by
  have hothers (first : Node) (rest : List Token) (hrest : rest ⊆ all) :=
    (ih.indentlessItems rest hrest).put fun others => first :: others
  unfold Node.indentlessItems
  split
  next hfuel => cases hfuel
  next hfuel =>
    cases hfuel
    have hrest := (List.cons_subset.mp h).2
    simp only
    split
    · exact hothers blank _ hrest
    · exact hothers blank _ hrest
    · exact hothers blank _ hrest
    · exact hothers blank _ hrest
    · exact ih.front_bind hothers _ hrest
  next => exact Yields.ok_iff.mpr h

theorem blockPart_succ (ih : RulesWithin handles all fuel) (h : ts ⊆ all) :
    Within all (Node.blockPart handles (fuel + 1) ts) := by
  unfold Node.blockPart
  split
  · exact Yields.ok_iff.mpr h
  · exact Yields.ok_iff.mpr h
  · exact Yields.ok_iff.mpr h
  · exact ih.front _ _ h

theorem blockPairs_succ (ih : RulesWithin handles all fuel) (h : ts ⊆ all) :
    Within all (Node.blockPairs handles (fuel + 1) ts) := by
  have hothers (key value : Node) (rest : List Token) (hrest : rest ⊆ all) :=
    (ih.blockPairs rest hrest).put fun others => (key, value) :: others
  unfold Node.blockPairs
  split
  next hfuel => cases hfuel
  next hfuel =>
    cases hfuel
    apply (ih.blockPart _ (List.cons_subset.mp h).2).bind
    rintro ⟨key, rest⟩ hrest
    simp only at hrest ⊢
    split
    · apply (ih.blockPart _ (List.cons_subset.mp hrest).2).bind
      intro found hfound
      exact hothers key found.1 found.2 hfound
    · exact hothers key blank rest hrest
  next => exact Yields.ok_iff.mpr (List.cons_subset.mp h).2
  next => exact unexpected_within h

theorem flowItems_succ (ih : RulesWithin handles all fuel) (first : Bool) (h : ts ⊆ all) :
    Within all (Node.flowItems handles first (fuel + 1) ts) := by
  have hothers (item : Node) (rest : List Token) (hrest : rest ⊆ all) :=
    (ih.flowItems false rest hrest).put fun others => item :: others
  unfold Node.flowItems
  split
  next hfuel => cases hfuel
  next => exact Yields.ok_iff.mpr (List.cons_subset.mp h).2
  next hfuel _ =>
    cases hfuel
    extract_lets afterComma
    have hafterComma (rest : List Token) (hrest : rest ⊆ all) : Within all (afterComma rest) := by
      unfold afterComma
      split
      · exact Yields.pure_iff.mpr (List.cons_subset.mp hrest).2
      · extract_lets number afterKey
        have hafterKey (key : Node) (rest : List Token) (hrest : rest ⊆ all) :
            Within all (afterKey (key, rest)) := by
          unfold afterKey
          split
          next key rest heq =>
          cases heq
          extract_lets afterValue
          have hafterValue (value : Node) (rest : List Token) (hrest : rest ⊆ all) :
              Within all (afterValue (value, rest)) := hothers _ rest hrest
          split
          · have hvalue := (List.cons_subset.mp hrest).2
            split
            · exact hafterValue blank _ hvalue
            · exact hafterValue blank _ hvalue
            · exact ih.front_bind hafterValue _ hvalue
          · exact hafterValue blank rest hrest
        have hkey := (List.cons_subset.mp hrest).2
        split
        · exact hafterKey blank _ hkey
        · exact hafterKey blank _ hkey
        · exact hafterKey blank _ hkey
        · exact ih.front_bind hafterKey _ hkey
      · exact ih.front_bind hothers _ hrest
    split
    · exact hafterComma _ h
    · split
      · exact hafterComma _ (List.cons_subset.mp h).2
      · exact (unexpected_within h).bind hafterComma

theorem flowPairs_succ (ih : RulesWithin handles all fuel) (first : Bool) (h : ts ⊆ all) :
    Within all (Node.flowPairs handles first (fuel + 1) ts) := by
  have hothers (pair : Node × Node) (rest : List Token) (hrest : rest ⊆ all) :=
    (ih.flowPairs false rest hrest).put fun others => pair :: others
  unfold Node.flowPairs
  split
  next hfuel => cases hfuel
  next => exact Yields.ok_iff.mpr (List.cons_subset.mp h).2
  next hfuel _ =>
    cases hfuel
    extract_lets afterKey afterComma
    have hafterKey (key : Node) (rest : List Token) (hrest : rest ⊆ all) :
        Within all (afterKey (key, rest)) := by
      unfold afterKey
      split
      next key rest heq =>
      cases heq
      extract_lets afterValue
      have hafterValue (value : Node) (rest : List Token) (hrest : rest ⊆ all) :
          Within all (afterValue (value, rest)) := hothers _ rest hrest
      split
      · have hvalue := (List.cons_subset.mp hrest).2
        split
        · exact hafterValue blank _ hvalue
        · exact hafterValue blank _ hvalue
        · exact ih.front_bind hafterValue _ hvalue
      · exact hafterValue blank rest hrest
    have hafterComma (rest : List Token) (hrest : rest ⊆ all) : Within all (afterComma rest) := by
      unfold afterComma
      split
      · exact Yields.pure_iff.mpr (List.cons_subset.mp hrest).2
      · have hkey := (List.cons_subset.mp hrest).2
        split
        · exact hafterKey blank _ hkey
        · exact hafterKey blank _ hkey
        · exact hafterKey blank _ hkey
        · exact ih.front_bind hafterKey _ hkey
      · exact ih.front_bind (fun key => hothers (key, blank)) _ hrest
    split
    · exact hafterComma _ h
    · split
      · exact hafterComma _ (List.cons_subset.mp h).2
      · exact (unexpected_within h).bind hafterComma

end RulesWithin

theorem rulesWithin (handles : Handles) (all : List Token) (fuel : Nat) :
    RulesWithin handles all fuel := by
  induction fuel with
  | zero =>
      constructor
      · intro allowed ts _
        rw [ofFront]
        exact Yields.malformed
      · intro ts _
        exact Yields.malformed
      · intro ts _
        exact Yields.malformed
      · intro ts _
        exact Yields.malformed
      · intro ts _
        exact Yields.malformed
      · intro first ts _
        exact Yields.malformed
      · intro first ts _
        exact Yields.malformed
  | succ fuel ih =>
      constructor
      · intro allowed ts h
        exact ih.front_succ allowed h
      · intro ts h
        exact ih.blockItems_succ h
      · intro ts h
        exact ih.indentlessItems_succ h
      · intro ts h
        exact ih.blockPart_succ h
      · intro ts h
        exact ih.blockPairs_succ h
      · intro first ts h
        exact ih.flowItems_succ first h
      · intro first ts h
        exact ih.flowPairs_succ first h

theorem keepingAnchors_yields {p : α → Prop} {q : Fault → Prop} {reading : Except ReadError α}
    (h : Yields p q reading) : Yields p q (keepingAnchors ts reading) := by
  unfold Node.keepingAnchors
  split
  next cause =>
    split
    · exact h
    · exact Yields.malformed
  next => exact h

section Anchors

variable {q : Fault → Prop}

theorem addAnchor_yields (before : List (List Char)) (anchor : Option (List Char)) :
    Yields (fun _ => True) q (addAnchor before anchor) := by
  cases anchor with
  | none => exact Yields.ok_iff.mpr trivial
  | some name =>
      rw [addAnchor]
      split
      · exact Yields.malformed
      · exact Yields.ok_iff.mpr trivial

mutual

/-- Anchors that are not kept make a text malformed, and nothing else. -/
theorem anchors_yields (before : List (List Char)) :
    ∀ node : Node, Yields (fun _ => True) q (anchors before node)
  | .alias name => by
      rw [anchors]
      split
      · exact Yields.ok_iff.mpr trivial
      · exact Yields.malformed
  | .scalar anchor _ _ _ => by
      rw [anchors]
      exact addAnchor_yields before anchor
  | .sequence anchor _ _ items => by
      rw [anchors]
      exact (addAnchor_yields before anchor).bind fun found _ => anchorsOfItems_yields found items
  | .mapping anchor _ _ pairs => by
      rw [anchors]
      exact (addAnchor_yields before anchor).bind fun found _ => anchorsOfPairs_yields found pairs

theorem anchorsOfItems_yields (before : List (List Char)) :
    ∀ items : List Node, Yields (fun _ => True) q (anchorsOfItems before items)
  | [] => Yields.ok_iff.mpr trivial
  | x :: xs => by
      rw [anchorsOfItems]
      exact (anchors_yields before x).bind fun found _ => anchorsOfItems_yields found xs

theorem anchorsOfPairs_yields (before : List (List Char)) :
    ∀ pairs : List (Node × Node), Yields (fun _ => True) q (anchorsOfPairs before pairs)
  | [] => Yields.ok_iff.mpr trivial
  | (k, v) :: ps => by
      rw [anchorsOfPairs]
      apply (anchors_yields before k).bind
      intro found _
      apply (anchors_yields found v).bind
      intro found _
      exact anchorsOfPairs_yields found ps

end

end Anchors

theorem directives_within (versioned : Bool) (handles : Handles) (h : ts ⊆ all) :
    Within all (directives versioned handles ts) := by
  induction ts generalizing versioned handles with
  | nil => exact Yields.ok_iff.mpr h
  | cons t ts ih =>
      have hrest := (List.cons_subset.mp h).2
      unfold directives
      split
      next d rest heq =>
        cases heq
        split
        · split
          · exact Yields.malformed
          · exact ih true handles hrest
        · split
          · exact Yields.malformed
          · exact ih versioned _ hrest
        · exact ih versioned handles hrest
      next => exact Yields.ok_iff.mpr h

theorem document_within (handles : Handles) (h : ts ⊆ all) : Within all (document handles ts) := by
  unfold document
  split
  · exact Yields.ok_iff.mpr h
  · exact Yields.ok_iff.mpr h
  · exact Yields.ok_iff.mpr h
  · exact Yields.ok_iff.mpr h
  · exact (rulesWithin handles all _).front _ _ h

theorem skipEnds_subset (ts : List Token) : skipEnds ts ⊆ ts := by
  induction ts with
  | nil => exact List.Subset.refl []
  | cons t ts ih =>
      unfold skipEnds
      split
      next rest heq =>
        cases heq
        exact List.Subset.trans ih (List.subset_cons_self _ _)
      next => exact List.Subset.refl _

theorem directed_within (ts : List Token) : Within ts (do
    let (handles, rest) ← directives false [] ts
    match rest with
    | .documentStart :: rest => document (handles ++ standardHandles) rest
    | rest => unexpected rest) := by
  apply (directives_within false [] (List.Subset.refl ts)).bind
  rintro ⟨handles, rest⟩ hrest
  simp only at hrest ⊢
  split
  · exact document_within _ (List.cons_subset.mp hrest).2
  · exact unexpected_within hrest

theorem root_within (ts : List Token) : Within ts (match ts with
    | .directive _ :: _ | .documentStart :: _ => do
        let (handles, ts) ← directives false [] ts
        match ts with
        | .documentStart :: ts => document (handles ++ standardHandles) ts
        | ts => unexpected ts
    | ts => ofFront standardHandles .block (4 * ts.length + 4) ts) := by
  split
  · exact directed_within _
  · exact directed_within _
  · exact (rulesWithin standardHandles _ _).front _ _ (List.Subset.refl _)

/-- Reading the document of tokens has no faults but those that the tokens break off with. -/
theorem ofTokens_yields (ts : List Token) :
    Yields (fun _ => True) (fun cause => .unreadable cause ∈ ts) (ofTokens ts) := by
  unfold ofTokens
  split
  · exact Yields.ok_iff.mpr trivial
  · apply (keepingAnchors_yields (root_within ts)).bind
    rintro ⟨root, rest⟩ hrest
    apply (anchors_yields [] root).bind
    intro _ _
    split
    · exact Yields.pure_iff.mpr trivial
    · exact unexpected_within (List.Subset.trans (skipEnds_subset rest) hrest)

end FunctionPipeline.Yaml.Node

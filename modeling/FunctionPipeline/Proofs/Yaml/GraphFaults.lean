import FunctionPipeline.Proofs.Yaml.TreeFaults
import Mathlib.Data.List.TakeDrop

/-!
The graph of a document has the document's nodes: their tags and texts, and edges that lead to nodes
of the graph. Building the graph makes it so and working merge keys in keeps it so; hence the value
of a document with aliases has no faults but those of its nodes.
-/

namespace FunctionPipeline.Yaml

open Node

def NodeContent.indices : NodeContent → List Nat
  | .scalar _ => []
  | .sequence items => items
  | .mapping pairs => pairs.flatMap fun p => [p.1, p.2]

/-- A tag that a node may have after its own one: an equals sign may have become a text. -/
def BecomesTag (own tag : Tag) : Prop := tag = own ∨ own = .value ∧ tag = .str

inductive GraphNode.StandsFor (root : Node) : GraphNode → Prop where
  | scalar {anchor : Option (List Char)} {own tag : Tag} {number : Nat} {text : List Char} :
      root.Holds (.scalar anchor own number text) → BecomesTag own tag →
      StandsFor root ⟨tag, .scalar text⟩
  | sequence {tag : Tag} {items : List Nat} : StandsFor root ⟨tag, .sequence items⟩
  | mapping {anchor : Option (List Char)} {own tag : Tag} {number : Nat}
      {written : List (Node × Node)} {pairs : List (Nat × Nat)} :
      root.Holds (.mapping anchor own number written) → BecomesTag own tag →
      StandsFor root ⟨tag, .mapping pairs⟩

namespace Graph

/-- Every node stands for one of the document and holds nodes of the graph. -/
structure Shows (root : Node) (g : Graph) : Prop where
  node : ∀ {i : Nat} {n : GraphNode}, g[i]? = some n → n.StandsFor root
  indices : ∀ {i : Nat} {n : GraphNode}, g[i]? = some n → ∀ j ∈ n.content.indices, j < g.size

def HasPairs (g : Graph) (pairs : List (Nat × Nat)) : Prop := ∀ p ∈ pairs, p.1 < g.size ∧ p.2 < g.size

variable {root : Node} {g : Graph}

theorem shows_empty : Shows root #[] := by
  constructor
  · intro i n h
    simp at h
  · intro i n h
    simp at h

theorem hasPairs_of_content {i : Nat} {tag : Tag} {pairs : List (Nat × Nat)} (h : g.Shows root)
    (hi : g[i]? = some ⟨tag, .mapping pairs⟩) : g.HasPairs pairs := by
  intro p hp
  have hindices := h.indices hi
  constructor
  · exact hindices p.1 (List.mem_flatMap.mpr ⟨p, hp, by simp⟩)
  · exact hindices p.2 (List.mem_flatMap.mpr ⟨p, hp, by simp⟩)

@[simp] theorem size_setContent (g : Graph) (i : Nat) (content : NodeContent) :
    (g.setContent i content).size = g.size := Array.size_modify

@[simp] theorem size_asText (g : Graph) (i : Nat) : (g.asText i).size = g.size := Array.size_modify

theorem getElem?_setContent (g : Graph) (i j : Nat) (content : NodeContent) :
    (g.setContent i content)[j]? =
      if i = j then (g[j]?).map fun n => { n with content } else g[j]? := Array.getElem?_modify

/-- A node of a graph in which one was given another content is that one or stood there before. -/
theorem of_getElem?_setContent {i j : Nat} {content : NodeContent} {n : GraphNode}
    (h : (g.setContent i content)[j]? = some n) :
    (i = j ∧ ∃ m, g[i]? = some m ∧ n = { m with content }) ∨ g[j]? = some n := by
  rw [getElem?_setContent] at h
  split at h
  next hij =>
    subst hij
    obtain ⟨m, hm, rfl⟩ := Option.map_eq_some_iff.mp h
    exact Or.inl ⟨rfl, m, hm, rfl⟩
  next => exact Or.inr h

/-- A mapping may be given other pairs of nodes. -/
theorem Shows.setPairs {i : Nat} {tag : Tag} {before pairs : List (Nat × Nat)} (h : g.Shows root)
    (hi : g[i]? = some ⟨tag, .mapping before⟩) (hpairs : g.HasPairs pairs) :
    (g.setContent i (.mapping pairs)).Shows root := by
  constructor
  · intro j n hj
    rcases of_getElem?_setContent hj with ⟨rfl, m, hm, rfl⟩ | hj
    · rw [hi] at hm
      cases hm
      cases h.node hi with
      | mapping hheld htag => exact .mapping hheld htag
    · exact h.node hj
  · intro j n hj k hk
    rw [size_setContent]
    rcases of_getElem?_setContent hj with ⟨rfl, m, -, rfl⟩ | hj
    · obtain ⟨p, hp, hmem⟩ := List.mem_flatMap.mp hk
      simp only [List.mem_cons, List.not_mem_nil, or_false] at hmem
      rcases hmem with rfl | rfl
      · exact (hpairs p hp).1
      · exact (hpairs p hp).2
    · exact h.indices hj k hk

/-- Any node may become a sequence of nodes. -/
theorem Shows.setItems (i : Nat) {items : List Nat} (h : g.Shows root)
    (hitems : ∀ j ∈ items, j < g.size) : (g.setContent i (.sequence items)).Shows root := by
  constructor
  · intro j n hj
    rcases of_getElem?_setContent hj with ⟨-, m, -, rfl⟩ | hj
    · exact .sequence
    · exact h.node hj
  · intro j n hj k hk
    rw [size_setContent]
    rcases of_getElem?_setContent hj with ⟨-, m, -, rfl⟩ | hj
    · exact hitems k hk
    · exact h.indices hj k hk

theorem becomesTag_text {own tag : Tag} (h : BecomesTag own tag) (hvalue : tag = .value) :
    BecomesTag own .str := by
  rcases h with rfl | ⟨-, rfl⟩
  · exact Or.inr ⟨hvalue, rfl⟩
  · cases hvalue

theorem Shows.asText (i : Nat) (h : g.Shows root) : (g.asText i).Shows root := by
  have hnode {j : Nat} {n : GraphNode} (hj : (g.asText i)[j]? = some n) :
      g[j]? = some n ∨ ∃ m, g[j]? = some m ∧ m.tag = .value ∧ n = { m with tag := .str } := by
    rw [Graph.asText, Array.getElem?_modify] at hj
    split at hj
    next =>
      obtain ⟨m, hm, rfl⟩ := Option.map_eq_some_iff.mp hj
      split
      next htag => exact Or.inr ⟨m, hm, htag, rfl⟩
      next => exact Or.inl hm
    next => exact Or.inl hj
  constructor
  · intro j n hj
    rcases hnode hj with hsame | ⟨m, hm, htag, rfl⟩
    · exact h.node hsame
    · cases h.node hm with
      | scalar hheld hown => exact .scalar hheld (becomesTag_text hown htag)
      | sequence => exact .sequence
      | mapping hheld hown => exact .mapping hheld (becomesTag_text hown htag)
  · intro j n hj k hk
    rw [size_asText]
    rcases hnode hj with hsame | ⟨m, hm, -, rfl⟩
    · exact h.indices hsame k hk
    · exact h.indices hm k hk

theorem shows_textKeys (pairs : List (Nat × Nat)) (h : g.Shows root) :
    (pairs.foldl (fun g p => g.asText p.1) g).Shows root ∧
      (pairs.foldl (fun g p => g.asText p.1) g).size = g.size := by
  induction pairs generalizing g with
  | nil => exact ⟨h, rfl⟩
  | cons p pairs ih =>
      obtain ⟨hshows, hsize⟩ := ih (h.asText p.1)
      exact ⟨hshows, hsize.trans (size_asText g p.1)⟩

theorem node_of_pairsAt? {i : Nat} {pairs : List (Nat × Nat)} (h : g.pairsAt? i = some pairs) :
    ∃ tag, g[i]? = some ⟨tag, .mapping pairs⟩ := by
  unfold pairsAt? contentAt at h
  cases hi : g[i]? with
  | none => simp [hi] at h
  | some n =>
      obtain ⟨tag, content⟩ := n
      cases content with
      | mapping found =>
          simp only [hi, Option.map_some, Option.getD_some, Option.some.injEq] at h
          exact ⟨tag, by rw [h]⟩
      | scalar text => simp [hi] at h
      | sequence items => simp [hi] at h

theorem Shows.hasPairs (h : g.Shows root) (i : Nat) : g.HasPairs ((g.pairsAt? i).getD []) := by
  cases hpairs : g.pairsAt? i with
  | none =>
      intro p hp
      cases hp
  | some pairs =>
      obtain ⟨tag, hi⟩ := node_of_pairsAt? hpairs
      exact hasPairs_of_content h hi

theorem HasPairs.append {pairs others : List (Nat × Nat)} (h : g.HasPairs pairs)
    (hothers : g.HasPairs others) : g.HasPairs (pairs ++ others) :=
  List.forall_mem_append.mpr ⟨h, hothers⟩

theorem HasPairs.of_size {other : Graph} {pairs : List (Nat × Nat)} (h : g.HasPairs pairs)
    (hsize : other.size = g.size) : other.HasPairs pairs := by
  intro p hp
  rw [hsize]
  exact h p hp

/-- Working the merge keys of several mappings in, one after the other. -/
private theorem flattenAll_yields {q : Fault → Prop} {fuel : Nat}
    (hone : ∀ item (flat : Graph), flat.Shows root →
      Yields (fun after => Shows root after ∧ after.size = flat.size) q
        (flattenFrom fuel item [] flat)) (items : List Nat) (h : g.Shows root) :
    Yields (fun found => Shows root found.2 ∧ found.2.size = g.size ∧
        ∀ pairs ∈ found.1, found.2.HasPairs pairs) q
      (items.foldlM (fun found item => do
        let flat ← flattenFrom fuel item [] found.2
        return ((flat.pairsAt? item).getD [] :: found.1, flat)) ([], g)) := by
  apply Yields.foldlM
  · exact ⟨h, rfl, fun pairs hpairs => by cases hpairs⟩
  · rintro ⟨found, flat⟩ item ⟨hshows, hsame, hpairs⟩
    apply (hone item flat hshows).bind
    rintro after ⟨hafter, hafterSize⟩
    apply Yields.pure_iff.mpr
    refine ⟨hafter, hafterSize.trans hsame, List.forall_mem_cons.mpr ⟨?_, ?_⟩⟩
    · exact hafter.hasPairs item
    · exact fun pairs hmem => (hpairs pairs hmem).of_size hafterSize

/-- Working merge keys in keeps the nodes, and how many they are. -/
theorem flattenFrom_yields {q : Fault → Prop} (fuel i : Nat) {merged : List (Nat × Nat)}
    (h : g.Shows root) (hmerged : g.HasPairs merged) :
    Yields (fun flat => Shows root flat ∧ flat.size = g.size) q (flattenFrom fuel i merged g) := by
  induction fuel generalizing i merged g with
  | zero => exact Yields.malformed
  | succ fuel ih =>
      unfold flattenFrom
      split
      · exact Yields.malformed
      next pairs hpairs =>
        obtain ⟨tag, hi⟩ := node_of_pairsAt? hpairs
        have hfound := hasPairs_of_content h hi
        rw [List.span_eq_takeWhile_dropWhile]
        simp only
        generalize htest : (fun p : Nat × Nat => decide (g.tagAt p.1 ≠ .merge)) = test
        have hparts : pairs.takeWhile test ++ pairs.dropWhile test = pairs :=
          List.takeWhile_append_dropWhile
        split
        · have hset := h.setPairs hi (hmerged.append hfound)
          obtain ⟨hshows, hsize⟩ := shows_textKeys (merged ++ pairs) hset
          exact Yields.ok_iff.mpr ⟨hshows, hsize.trans (size_setContent g i _)⟩
        next key value after hrest =>
          have hkept : g.HasPairs (pairs.takeWhile test ++ after) := by
            intro p hp
            apply hfound p
            rw [← hparts, hrest]
            rcases List.mem_append.mp hp with hbefore | hafter
            · exact List.mem_append_left _ hbefore
            · exact List.mem_append_right _ (List.mem_cons_of_mem _ hafter)
          have hset := h.setPairs hi hkept
          have hsize := size_setContent g i (.mapping (pairs.takeWhile test ++ after))
          split
          · apply (ih value hset fun p hp => by cases hp).bind
            rintro flat ⟨hflat, hflatSize⟩
            have hsame := hflatSize.trans hsize
            have hmore := (hmerged.of_size hsame).append (hflat.hasPairs value)
            exact (ih i hflat hmore).mono (fun _ h => ⟨h.1, h.2.trans hsame⟩) fun _ h => h
          next items _ =>
            have hall := flattenAll_yields (fun item _ hflat => ih item hflat fun p hp => by cases hp)
              items hset
            apply hall.bind
            rintro ⟨found, flat⟩ ⟨hflat, hflatSize, hpairs⟩
            have hsame := hflatSize.trans hsize
            have hmore : flat.HasPairs (merged ++ found.flatten) := by
              apply (hmerged.of_size hsame).append
              intro p hp
              obtain ⟨pairs, hmem, hp⟩ := List.mem_flatten.mp hp
              exact hpairs pairs hmem p hp
            exact (ih i hflat hmore).mono (fun _ h => ⟨h.1, h.2.trans hsame⟩) fun _ h => h
          · exact Yields.malformed

end Graph

namespace GraphBuilder

/-- A graph being made shows the nodes so far, and its anchors are some of them. -/
structure Shows (root : Node) (b : GraphBuilder) : Prop where
  graph : b.nodes.Shows root
  anchors : ∀ e ∈ b.anchors, e.2 < b.nodes.size

/-- What becomes of a graph by adding nodes: those before are there as they were. -/
structure Grows (root : Node) (b after : GraphBuilder) : Prop where
  shows : after.Shows root
  size : b.nodes.size ≤ after.nodes.size
  same : ∀ j < b.nodes.size, after.nodes[j]? = b.nodes[j]?

variable {root : Node} {b after last : GraphBuilder}

theorem Grows.refl (h : b.Shows root) : Grows root b b := ⟨h, Nat.le_refl _, fun _ _ => rfl⟩

theorem Grows.trans (h : Grows root b after) (h' : Grows root after last) : Grows root b last where
  shows := h'.shows
  size := Nat.le_trans h.size h'.size
  same j hj := (h'.same j (Nat.lt_of_lt_of_le hj h.size)).trans (h.same j hj)

theorem add_grows (anchor : Option (List Char)) {n : GraphNode} (h : b.Shows root)
    (hn : n.StandsFor root) (hindices : n.content.indices = []) :
    Grows root b (b.add anchor n).2 := by
  have hpush (j : Nat) : (b.nodes.push n)[j]? = if j = b.nodes.size then some n else b.nodes[j]? :=
    Array.getElem?_push
  constructor
  · constructor
    · constructor
      · intro j m hj
        rw [add, hpush] at hj
        split at hj
        · cases hj
          exact hn
        · exact h.graph.node hj
      · intro j m hj k hk
        rw [add, hpush] at hj
        rw [add, Array.size_push]
        split at hj
        · cases hj
          rw [hindices] at hk
          cases hk
        · exact Nat.lt_succ_of_lt (h.graph.indices hj k hk)
    · intro e he
      rw [add, Array.size_push]
      rcases List.mem_append.mp he with hnew | hold
      · cases anchor with
        | none => cases hnew
        | some name =>
            cases List.mem_singleton.mp hnew
            exact Nat.lt_succ_self _
      · exact Nat.lt_succ_of_lt (h.anchors e hold)
  · rw [add, Array.size_push]
    exact Nat.le_succ _
  · intro j hj
    rw [add, hpush, if_neg (Nat.ne_of_lt hj)]

theorem Grows.setContent {i : Nat} {content : NodeContent} (h : Grows root b after)
    (hi : b.nodes.size ≤ i) (hshows : (after.nodes.setContent i content).Shows root) :
    Grows root b { after with nodes := after.nodes.setContent i content } := by
  constructor
  · constructor
    · exact hshows
    · intro e he
      rw [Graph.size_setContent]
      exact h.shows.anchors e he
  · rw [Graph.size_setContent]
    exact h.size
  · intro j hj
    rw [Graph.getElem?_setContent, if_neg (by omega)]
    exact h.same j hj

mutual

theorem addNode_grows (b : GraphBuilder) :
    ∀ node : Node, b.Shows root → root.Holds node →
      0 < b.nodes.size ∨ (∀ name, node ≠ .alias name) →
      Grows root b (b.addNode node).2 ∧ (b.addNode node).1 < (b.addNode node).2.nodes.size
  | .alias name, hb, _, hpos => by
      have hpos : 0 < b.nodes.size := hpos.resolve_right fun h => h name rfl
      refine ⟨.refl hb, ?_⟩
      rw [addNode]
      cases hfound : b.anchors.find? (·.1 == name) with
      | none => exact hpos
      | some e => exact hb.anchors e (List.mem_of_find?_eq_some hfound)
  | .scalar anchor tag number text, hb, h, _ => by
      refine ⟨add_grows anchor hb (.scalar h (Or.inl rfl)) rfl, ?_⟩
      rw [addNode, add, Array.size_push]
      exact Nat.lt_succ_self _
  | .sequence anchor tag number items, hb, h, _ => by
      have hstands : GraphNode.StandsFor root ⟨tag, .sequence []⟩ := .sequence
      have hstart := add_grows anchor hb hstands rfl
      have hsize : (b.add anchor ⟨tag, .sequence []⟩).2.nodes.size = b.nodes.size + 1 :=
        Array.size_push _
      obtain ⟨hgrown, hitems⟩ := addItems_grows _ items hstart.shows (fun x hx => h.item hx)
        (by omega)
      have hshows := hgrown.shows.graph.setItems b.nodes.size hitems
      refine ⟨(hstart.trans hgrown).setContent (Nat.le_refl _) hshows, ?_⟩
      rw [addNode]
      have hlarger := hgrown.size
      simp only [add, Graph.size_setContent] at hsize hlarger ⊢
      omega
  | .mapping anchor tag number pairs, hb, h, _ => by
      have hstands : GraphNode.StandsFor root ⟨tag, .mapping []⟩ := .mapping h (Or.inl rfl)
      have hstart := add_grows anchor hb hstands rfl
      have hsize : (b.add anchor ⟨tag, .mapping []⟩).2.nodes.size = b.nodes.size + 1 :=
        Array.size_push _
      obtain ⟨hgrown, hpairs⟩ := addPairs_grows _ pairs hstart.shows
        (fun p hp => ⟨h.key hp, h.value hp⟩) (by omega)
      -- The container is still there as it was made when its content is put in.
      have hcontainer : (b.add anchor ⟨tag, .mapping []⟩).2.nodes[b.nodes.size]? =
          some ⟨tag, .mapping []⟩ := Array.getElem?_push_size
      have hstill := (hgrown.same b.nodes.size (by omega)).trans hcontainer
      have hshows := hgrown.shows.graph.setPairs hstill hpairs
      refine ⟨(hstart.trans hgrown).setContent (Nat.le_refl _) hshows, ?_⟩
      rw [addNode]
      have hlarger := hgrown.size
      simp only [add, Graph.size_setContent] at hsize hlarger ⊢
      omega

theorem addItems_grows (b : GraphBuilder) :
    ∀ items : List Node, b.Shows root → (∀ x ∈ items, root.Holds x) → 0 < b.nodes.size →
      Grows root b (b.addItems items).2 ∧
        ∀ i ∈ (b.addItems items).1, i < (b.addItems items).2.nodes.size
  | [], hb, _, _ => ⟨.refl hb, fun i hi => by cases hi⟩
  | x :: xs, hb, h, hpos => by
      obtain ⟨hfirst, hi⟩ := addNode_grows b x hb (h x (by simp)) (Or.inl hpos)
      obtain ⟨hrest, his⟩ := addItems_grows (b.addNode x).2 xs hfirst.shows
        (fun y hy => h y (by simp [hy])) (Nat.lt_of_lt_of_le hpos hfirst.size)
      refine ⟨hfirst.trans hrest, ?_⟩
      intro i hmem
      rcases List.mem_cons.mp hmem with rfl | hmem
      · exact Nat.lt_of_lt_of_le hi hrest.size
      · exact his i hmem

theorem addPairs_grows (b : GraphBuilder) :
    ∀ pairs : List (Node × Node), b.Shows root → (∀ p ∈ pairs, root.Holds p.1 ∧ root.Holds p.2) →
      0 < b.nodes.size →
      Grows root b (b.addPairs pairs).2 ∧ (b.addPairs pairs).2.nodes.HasPairs (b.addPairs pairs).1
  | [], hb, _, _ => ⟨.refl hb, fun p hp => by cases hp⟩
  | (k, v) :: ps, hb, h, hpos => by
      obtain ⟨hk, hv⟩ := h (k, v) (by simp)
      obtain ⟨hkey, hi⟩ := addNode_grows b k hb hk (Or.inl hpos)
      have hposKey := Nat.lt_of_lt_of_le hpos hkey.size
      obtain ⟨hvalue, hj⟩ := addNode_grows (b.addNode k).2 v hkey.shows hv (Or.inl hposKey)
      obtain ⟨hrest, hpairs⟩ := addPairs_grows ((b.addNode k).2.addNode v).2 ps hvalue.shows
        (fun p hp => h p (by simp [hp])) (Nat.lt_of_lt_of_le hposKey hvalue.size)
      refine ⟨(hkey.trans hvalue).trans hrest, ?_⟩
      intro p hp
      rcases List.mem_cons.mp hp with rfl | hmem
      · exact ⟨Nat.lt_of_lt_of_le hi (Nat.le_trans hvalue.size hrest.size),
          Nat.lt_of_lt_of_le hj hrest.size⟩
      · exact hpairs p hmem

end

end GraphBuilder

namespace Graph

variable {root : Node} {g : Graph}

theorem shows_ofRoot (root : Node) : (ofRoot root).Shows root := by
  have hempty : GraphBuilder.Shows root .empty := ⟨shows_empty, fun e he => by cases he⟩
  by_cases halias : ∃ name, root = .alias name
  · obtain ⟨name, rfl⟩ := halias
    exact shows_empty
  · exact (GraphBuilder.addNode_grows .empty root hempty .root
      (Or.inr fun name h => halias ⟨name, h⟩)).1.shows.graph

/-- The text that a node stands for is that of a scalar, if it is found at all. -/
theorem textAt_yields (fuel : Nat) {i : Nat} (h : g.Shows root) (hi : i < g.size) :
    Yields root.HasText (· = .endless) (g.textAt fuel i) := by
  induction fuel generalizing i with
  | zero => exact Yields.fault_iff.mpr rfl
  | succ fuel ih =>
      obtain ⟨n, hn⟩ : ∃ n, g[i]? = some n := ⟨g[i], Array.getElem?_eq_getElem hi⟩
      have hindices := h.indices hn
      have hcontent : g.contentAt i = n.content := by simp [contentAt, hn]
      have hstands := h.node hn
      unfold textAt
      rw [hcontent]
      cases hstands with
      | scalar hheld _ => exact Yields.ok_iff.mpr ⟨_, _, _, hheld⟩
      | sequence => exact Yields.malformed
      | mapping _ _ =>
          simp only
          split
          next key value hfound =>
            have hmem := List.mem_of_find?_eq_some hfound
            exact ih (hasPairs_of_content h hn _ hmem).2
          next => exact Yields.malformed

end Graph

namespace Construction

abbrev Proceeds (root : Node) {α : Type} (reading : Except ReadError (α × Construction)) : Prop :=
  Yields (fun made => made.2.graph.Shows root) root.Refuses reading

variable {root : Node} {c : Construction}

theorem ofText_yields {anchor : Option (List Char)} {own tag : Tag} {number : Nat}
    {text : List Char} (h : root.Holds (.scalar anchor own number text)) (hown : BecomesTag own tag)
    (origin : Nat) : Yields (fun _ => True) root.Refuses (ScalarValue.ofText tag origin text) := by
  rcases hown with rfl | ⟨-, rfl⟩
  · constructor
    · exact fun _ _ => trivial
    · exact fun _ hcause => .scalar h hcause
  · exact Yields.ok_iff.mpr trivial

theorem ofMapping_yields {anchor : Option (List Char)} {own tag : Tag} {number : Nat}
    {pairs : List (Node × Node)} {text : List Char}
    (h : root.Holds (.mapping anchor own number pairs)) (hown : BecomesTag own tag)
    (htext : root.HasText text) (origin : Nat) :
    Yields (fun _ => True) root.Refuses (ScalarValue.ofMapping tag origin text) := by
  rcases hown with rfl | ⟨-, rfl⟩
  · constructor
    · exact fun _ _ => trivial
    · exact fun _ hcause => .mapping h htext hcause
  · exact Yields.ok_iff.mpr trivial

theorem scalar_proceeds (halias : root.hasAlias = true) (i : Nat) (h : c.graph.Shows root)
    (htag : ScalarValue.isScalarTag (c.graph.tagAt i) = true) :
    Proceeds root (c.scalar i (c.graph.tagAt i)) := by
  unfold scalar
  cases hn : c.graph[i]? with
  | none =>
      have htagAt : c.graph.tagAt i = .null := by simp [Graph.tagAt, hn]
      have hcontent : c.graph.contentAt i = .scalar [] := by simp [Graph.contentAt, hn]
      rw [Graph.textAt, hcontent, htagAt]
      exact Yields.pure_iff.mpr h
  | some n =>
      have htagAt : c.graph.tagAt i = n.tag := by simp [Graph.tagAt, hn]
      have hcontent : c.graph.contentAt i = n.content := by simp [Graph.contentAt, hn]
      have hi : i < c.graph.size := (Array.getElem?_eq_some_iff.mp hn).1
      have hstands := h.node hn
      rw [htagAt] at htag ⊢
      rw [hcontent]
      cases hstands with
      | sequence =>
          rw [Graph.textAt, hcontent]
          exact Yields.malformed
      | scalar hheld hown =>
          rw [Graph.textAt, hcontent]
          apply (ofText_yields hheld hown i).bind
          intro v _
          exact Yields.pure_iff.mpr h
      | mapping hheld hown =>
          have hendless : root.Refuses .endless := by
            refine Refuses.endless hheld ?_ halias
            rcases hown with rfl | ⟨hvalue, -⟩
            · exact Or.inr htag
            · exact Or.inl hvalue
          have htext : Yields root.HasText root.Refuses
              (c.graph.textAt (c.graph.size + 1) i) := by
            apply (Graph.textAt_yields (c.graph.size + 1) h hi).mono
            · exact fun _ htext => htext
            · rintro cause rfl
              exact hendless
          apply htext.bind
          intro text hfound
          apply (ofMapping_yields hheld hown hfound i).bind
          intro v _
          exact Yields.pure_iff.mpr h

theorem item_proceeds (halias : root.hasAlias = true) (i : Nat) (h : c.graph.Shows root) :
    Proceeds root (c.item i) := by
  unfold item
  split
  · exact Yields.ok_iff.mpr h
  · split
    · exact Yields.ok_iff.mpr h
    · exact Yields.ok_iff.mpr h
    · exact Yields.ok_iff.mpr h
    · exact Yields.ok_iff.mpr h
    · exact Yields.ok_iff.mpr h
    · split
      next htag => exact scalar_proceeds halias i h htag
      next => exact Yields.malformed

theorem itemsOf_proceeds (halias : root.hasAlias = true) (is : List Nat)
    (h : c.graph.Shows root) : Proceeds root (c.itemsOf is) := by
  induction is generalizing c with
  | nil => exact Yields.ok_iff.mpr h
  | cons i is ih =>
      rw [itemsOf]
      apply (item_proceeds halias i h).bind
      rintro ⟨x, c⟩ hc
      apply (ih hc).bind
      rintro ⟨xs, c⟩ hc
      exact Yields.pure_iff.mpr hc

theorem entriesOf_proceeds (halias : root.hasAlias = true) (entries : List (Value × Item))
    (pairs : List (Nat × Nat)) (h : c.graph.Shows root) :
    Proceeds root (c.entriesOf entries pairs) := by
  induction pairs generalizing c entries with
  | nil => exact Yields.ok_iff.mpr h
  | cons p pairs ih =>
      rw [entriesOf]
      apply (item_proceeds halias p.1 h).bind
      rintro ⟨key, c⟩ hc
      cases key with
      | container _ => exact Yields.malformed
      | value key =>
          apply (item_proceeds halias p.2 hc).bind
          rintro ⟨x, c⟩ hc
          exact ih _ hc

theorem listedOf_proceeds (halias : root.hasAlias = true) (is : List Nat)
    (h : c.graph.Shows root) : Proceeds root (c.listedOf is) := by
  induction is generalizing c with
  | nil => exact Yields.ok_iff.mpr h
  | cons i is ih =>
      unfold listedOf
      split
      · apply (item_proceeds halias _ h).bind
        rintro ⟨key, c⟩ hc
        apply (item_proceeds halias _ hc).bind
        rintro ⟨x, c⟩ hc
        apply (ih hc).bind
        rintro ⟨ps, c⟩ hc
        exact Yields.pure_iff.mpr hc
      · exact Yields.malformed

theorem flattened_proceeds (halias : root.hasAlias = true) (i : Nat) (h : c.graph.Shows root) :
    Proceeds root (do
      let graph ← c.graph.flatten i
      let (es, c) ← { c with graph }.entriesOf [] ((graph.pairsAt? i).getD [])
      return (if c.graph.tagAt i = .set then Filling.members (es.map (·.1)) else .entries es,
        c)) := by
  apply (Graph.flattenFrom_yields _ i h fun p hp => by cases hp).bind
  rintro graph ⟨hgraph, -⟩
  have hchanged : ({ c with graph } : Construction).graph.Shows root := hgraph
  apply (entriesOf_proceeds halias [] _ hchanged).bind
  rintro ⟨es, c⟩ hc
  exact Yields.pure_iff.mpr hc

theorem listed_proceeds (halias : root.hasAlias = true) (items : List Nat)
    (h : c.graph.Shows root) : Proceeds root (do
      let (ps, c) ← c.listedOf items
      return (Filling.pairs ps, c)) :=
  (listedOf_proceeds halias items h).bind fun _ hc => Yields.pure_iff.mpr hc

theorem filling_proceeds (halias : root.hasAlias = true) (i : Nat) (h : c.graph.Shows root) :
    Proceeds root (c.filling i) := by
  unfold filling
  split
  · apply (itemsOf_proceeds halias _ h).bind
    rintro ⟨xs, c⟩ hc
    exact Yields.pure_iff.mpr hc
  · exact listed_proceeds halias _ h
  · exact listed_proceeds halias _ h
  · exact flattened_proceeds halias i h
  · exact flattened_proceeds halias i h
  · exact Yields.malformed

theorem fillAll_yields (halias : root.hasAlias = true) (is : List Nat) (h : c.graph.Shows root) :
    Yields (fun c => c.graph.Shows root) root.Refuses (c.fillAll is) := by
  induction is generalizing c with
  | nil => exact Yields.ok_iff.mpr h
  | cons i is ih =>
      rw [fillAll]
      apply (filling_proceeds halias i h).bind
      rintro ⟨filling, c⟩ hc
      exact ih hc

theorem fillLevels_yields (halias : root.hasAlias = true) (fuel : Nat)
    (h : c.graph.Shows root) :
    Yields (fun c => c.graph.Shows root) root.Refuses (fillLevels fuel c) := by
  induction fuel generalizing c with
  | zero => exact Yields.ok_iff.mpr h
  | succ fuel ih =>
      unfold fillLevels
      split
      · exact Yields.ok_iff.mpr h
      · have hemptied : ({ c with waiting := [] } : Construction).graph.Shows root := h
        apply (fillAll_yields halias _ hemptied).bind
        intro c hc
        exact ih hc

end Construction

/-- The value of a document with aliases has no faults but those of its nodes. -/
theorem Graph.toValue_yields {root : Node} (halias : root.hasAlias = true) :
    Yields (fun _ => True) root.Refuses (Graph.ofRoot root).toValue := by
  have hstart : (Construction.start (Graph.ofRoot root)).graph.Shows root := shows_ofRoot root
  unfold Graph.toValue
  apply (Construction.item_proceeds halias 0 hstart).bind
  rintro ⟨item, c⟩ hc
  apply (Construction.fillLevels_yields halias _ hc).bind
  intro c _
  exact Yields.pure_iff.mpr trivial

end FunctionPipeline.Yaml

import FunctionPipeline.Proofs.Document.TextKeys
import FunctionPipeline.Proofs.Yaml.DocumentTokens
import FunctionPipeline.Proofs.Yaml.TreeFaults
import FunctionPipeline.Yaml.Document

/-!
The nodes that the tokens of a document make, and their values. A node shows a value if it has no
alias, keeps all anchors and is built to the value without an error; nodes in sequence and pairs of
nodes do so together.
-/

namespace FunctionPipeline.Yaml

namespace Node

def Clean (errors : List (Option ReadError)) : Prop := ∀ e ∈ errors, e = none

structure Shows (node : Node) (v : Value) : Prop where
  noAlias : node.hasAlias = false
  anchors : ∀ before, node.anchors before = .ok before
  value : node.build.value = v
  clean : Clean node.build.errors

structure ShowsAll (nodes : List Node) (items : List Value) : Prop where
  noAlias : itemsHaveAlias nodes = false
  anchors : ∀ before, anchorsOfItems before nodes = .ok before
  values : (buildItems nodes).map (·.value) = items
  clean : ∀ b ∈ buildItems nodes, Clean b.errors

/-- Pairs of nodes that are entries written out, of which no key is a merge key. -/
structure ShowsPairs (pairs : List (Node × Node)) (entries : Entries) : Prop where
  noAlias : pairsHaveAlias pairs = false
  anchors : ∀ before, anchorsOfPairs before pairs = .ok before
  merged : mergedPairs pairs = .ok []
  values : (ownPairs pairs).map (fun p => (p.key.value, p.value.value)) = entries
  clean : ∀ p ∈ ownPairs pairs, Clean p.errors

theorem showsAll_nil : ShowsAll [] [] :=
  ⟨rfl, fun _ => rfl, rfl, fun _ h => by cases h⟩

theorem ShowsAll.cons {node : Node} {v : Value} {nodes : List Node} {items : List Value}
    (h : Shows node v) (hs : ShowsAll nodes items) : ShowsAll (node :: nodes) (v :: items) where
  noAlias := by simp [itemsHaveAlias, h.noAlias, hs.noAlias]
  anchors before := by
    rw [anchorsOfItems, h.anchors]
    exact hs.anchors before
  values := by simp [buildItems, h.value, hs.values]
  clean b hb := by
    rcases List.mem_cons.mp hb with rfl | hmem
    · exact h.clean
    · exact hs.clean b hmem

theorem showsPairs_nil : ShowsPairs [] [] :=
  ⟨rfl, fun _ => rfl, rfl, rfl, fun _ h => by cases h⟩

/-- The node of a text. -/
theorem shows_text (number : Nat) (s : String) :
    Shows (.scalar none .str number s.toList) (.str s) where
  noAlias := rfl
  anchors _ := rfl
  value := congrArg Value.str (String.ofList_toList)
  clean _ h := by cases h

theorem clean_pair {key value : Built} {s : String} (hkey : key.value = .str s)
    (hkeyClean : Clean key.errors) (hvalueClean : Clean value.errors) :
    Clean (BuiltPair.mk key value).errors := by
  have hdrop {errors : List (Option ReadError)} (h : Clean errors) : Clean (errors.drop 1) :=
    fun e he => h e (List.mem_of_mem_drop he)
  intro e he
  rcases List.mem_cons.mp he with rfl | hmem
  · have hkeyOwn : key.own = none := forall_own (P := (· = none)) rfl hkeyClean
    have hvalueOwn : value.own = none := forall_own (P := (· = none)) rfl hvalueClean
    simp [BuiltPair.own, hkeyOwn, hvalueOwn, hkey, Value.unhashable?, firstOf]
  · exact forall_levels (hdrop hkeyClean) (hdrop hvalueClean) e hmem

theorem ShowsPairs.cons (number : Nat) {s : String} {node : Node} {v : Value}
    {pairs : List (Node × Node)} {entries : Entries} (h : Shows node v)
    (hs : ShowsPairs pairs entries) :
    ShowsPairs ((.scalar none .str number s.toList, node) :: pairs) ((.str s, v) :: entries) where
  noAlias := by simp [pairsHaveAlias, hasAlias, h.noAlias, hs.noAlias]
  anchors before := by
    rw [anchorsOfPairs, (shows_text number s).anchors]
    change ((node.anchors before).bind fun before => anchorsOfPairs before pairs) = _
    rw [h.anchors]
    exact hs.anchors before
  merged := by
    rw [mergedPairs, hs.merged]
    rfl
  values := by
    have hkey := (shows_text number s).value
    simp only [ownPairs, tag, List.map_cons, hkey, h.value, hs.values]
  clean p hp := by
    rcases List.mem_cons.mp hp with rfl | hmem
    · exact clean_pair (shows_text number s).value (shows_text number s).clean h.clean
    · exact hs.clean p hmem

/-- The node of a word. -/
theorem shows_word (number : Nat) {v : Value} (h : IsWord v) :
    Shows (.scalar none (Plain.tag (scalarWord v)) number (scalarWord v)) v where
  noAlias := rfl
  anchors _ := rfl
  value := by rw [h.build]; rfl
  clean := by
    rw [h.build]
    exact fun e he => by cases he

theorem shows_sequence (number : Nat) {nodes : List Node} {items : List Value}
    (h : ShowsAll nodes items) : Shows (.sequence none .seq number nodes) (.list items) where
  noAlias := h.noAlias
  anchors := h.anchors
  value := congrArg Value.list h.values
  clean := forall_filled (P := (· = none)) rfl _ fun errors he => by
    obtain ⟨b, hb, rfl⟩ := List.mem_map.mp he
    exact h.clean b hb

theorem shows_mapping (number : Nat) {pairs : List (Node × Node)} {entries : Entries}
    (hkeys : (Entries.keys entries).Nodup) (htexts : ∀ e ∈ entries, ∃ s, e.1 = .str s)
    (h : ShowsPairs pairs entries) : Shows (.mapping none .map number pairs) (.object entries) := by
  have hbuilt : build (.mapping none .map number pairs) = Built.mapping (ownPairs pairs) := by
    simp only [build, h.merged]
    rfl
  refine ⟨h.noAlias, h.anchors, ?_, ?_⟩
  · rw [hbuilt]
    apply congrArg Value.object
    rw [h.values]
    exact Entries.ofList_of_distinct hkeys htexts
  · rw [hbuilt]
    refine forall_filled (P := (· = none)) rfl _ ?_
    intro errors he
    obtain ⟨p, hp, rfl⟩ := List.mem_map.mp he
    exact h.clean p hp

/-- A node that shows a value has it. -/
theorem Shows.toValue {node : Node} {v : Value} (h : Shows node v) : node.toValue = .ok v := by
  have hnone {errors : List (Option ReadError)} (hclean : Clean errors) :
      errors.foldl firstOf none = none := by
    induction errors with
    | nil => rfl
    | cons e errors ih =>
        rw [List.foldl_cons, hclean e (by simp)]
        exact ih fun e he => hclean e (by simp [he])
  simp [Node.toValue, h.noAlias, treeValue, hnone h.clean, h.value]

end Node

end FunctionPipeline.Yaml

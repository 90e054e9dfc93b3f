import FunctionPipeline.Yaml.Node

/-!
The nodes of a document with their aliases resolved: each node that is written has an index, and
containers hold indices. A node with an anchor can be held by several containers, or by itself.

`Graph.flatten` works merge keys in: afterwards no key of the mapping is one. Where a mapping is
shared, so is what became of it.
-/

namespace FunctionPipeline.Yaml

inductive NodeContent where
  | scalar (text : List Char)
  | sequence (items : List Nat)
  | mapping (pairs : List (Nat × Nat))
  deriving DecidableEq, Repr

structure GraphNode where
  tag : Tag
  content : NodeContent
  deriving DecidableEq, Repr

abbrev Graph := Array GraphNode

namespace Graph

def tagAt (g : Graph) (i : Nat) : Tag := ((g[i]?).map (·.tag)).getD .null

def contentAt (g : Graph) (i : Nat) : NodeContent :=
  ((g[i]?).map (·.content)).getD (.scalar [])

def pairsAt? (g : Graph) (i : Nat) : Option (List (Nat × Nat)) :=
  match g.contentAt i with
  | .mapping pairs => some pairs
  | _ => none

def setContent (g : Graph) (i : Nat) (content : NodeContent) : Graph :=
  g.modify i fun node => { node with content }

/-- With the tag of texts on a node that is an equals sign. -/
def asText (g : Graph) (i : Nat) : Graph :=
  g.modify i fun node => if node.tag = .value then { node with tag := .str } else node

def pairCount (g : Graph) : Nat :=
  g.foldl (fun n node => match node.content with
    | .mapping pairs => n + pairs.length
    | _ => n) 0

end Graph

/-- A graph being made, with the indices of the anchors so far. -/
structure GraphBuilder where
  nodes : Graph
  anchors : List (List Char × Nat)

namespace GraphBuilder

def empty : GraphBuilder := ⟨#[], []⟩

def add (b : GraphBuilder) (anchor : Option (List Char)) (node : GraphNode) : Nat × GraphBuilder :=
  (b.nodes.size, ⟨b.nodes.push node, (anchor.map (·, b.nodes.size)).toList ++ b.anchors⟩)

mutual

/-- Adds a node with all it holds. Its anchor counts within itself already. -/
def addNode (b : GraphBuilder) : Node → Nat × GraphBuilder
  | .alias name => (((b.anchors.find? (·.1 == name)).map (·.2)).getD 0, b)
  | .scalar anchor tag _ text => b.add anchor ⟨tag, .scalar text⟩
  | .sequence anchor tag _ items =>
      let (i, b) := b.add anchor ⟨tag, .sequence []⟩
      let (items, b) := b.addItems items
      (i, { b with nodes := b.nodes.setContent i (.sequence items) })
  | .mapping anchor tag _ pairs =>
      let (i, b) := b.add anchor ⟨tag, .mapping []⟩
      let (pairs, b) := b.addPairs pairs
      (i, { b with nodes := b.nodes.setContent i (.mapping pairs) })

def addItems (b : GraphBuilder) : List Node → List Nat × GraphBuilder
  | [] => ([], b)
  | x :: xs =>
      let (i, b) := b.addNode x
      let (is, b) := b.addItems xs
      (i :: is, b)

def addPairs (b : GraphBuilder) : List (Node × Node) → List (Nat × Nat) × GraphBuilder
  | [] => ([], b)
  | (k, v) :: ps =>
      let (key, b) := b.addNode k
      let (value, b) := b.addNode v
      let (pairs, b) := b.addPairs ps
      ((key, value) :: pairs, b)

end

end GraphBuilder

namespace Graph

/-- The graph of a document whose aliases have anchors. The root has index 0. -/
def ofRoot (root : Node) : Graph := (GraphBuilder.empty.addNode root).2.nodes

/-- The text of a scalar, or of the value of a mapping under the key `=`. A mapping that would
stand for its own text is a fault. -/
def textAt (g : Graph) : Nat → Nat → Except ReadError (List Char)
  | 0, _ => .error (.fault .endless)
  | fuel + 1, i =>
      match g.contentAt i with
      | .scalar text => .ok text
      | .mapping pairs =>
          match pairs.find? fun p => g.tagAt p.1 = .value with
          | some (_, value) => textAt g fuel value
          | none => .error .malformed
      | .sequence _ => .error .malformed

/-- Works the merge keys of a mapping in: each is taken out, what it names is flattened, and the
pairs of that come before all others. `merged` are those found so far. -/
def flattenFrom : Nat → Nat → List (Nat × Nat) → Graph → Except ReadError Graph
  | 0, _, _, _ => .error .malformed
  | fuel + 1, i, merged, g =>
      match g.pairsAt? i with
      | none => .error .malformed
      | some pairs =>
          let (before, rest) := pairs.span fun p => g.tagAt p.1 ≠ .merge
          match rest with
          | [] =>
              let pairs := merged ++ pairs
              .ok (pairs.foldl (fun g p => g.asText p.1) (g.setContent i (.mapping pairs)))
          | (_, value) :: after => do
              let g := g.setContent i (.mapping (before ++ after))
              match g.contentAt value with
              | .mapping _ =>
                  let g ← flattenFrom fuel value [] g
                  flattenFrom fuel i (merged ++ (g.pairsAt? value).getD []) g
              | .sequence items =>
                  let (found, g) ← items.foldlM (fun (found, g) item => do
                    let g ← flattenFrom fuel item [] g
                    return ((g.pairsAt? item).getD [] :: found, g)) ([], g)
                  flattenFrom fuel i (merged ++ found.flatten) g
              | .scalar _ => .error .malformed

def flatten (g : Graph) (i : Nat) : Except ReadError Graph :=
  flattenFrom (g.pairCount + 2) i [] g

end Graph

end FunctionPipeline.Yaml

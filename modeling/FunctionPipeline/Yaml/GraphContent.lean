import FunctionPipeline.Document.SetOrder
import FunctionPipeline.Yaml.Graph
import FunctionPipeline.Yaml.ScalarValue

/-!
The value of a graph. A node has one item, however many hold it: a scalar's value, or a container,
which stays empty until those before it are filled. Containers are filled level by level, and the
first node without a value is the error. At last a container that is reached inside itself becomes
a reference to that level.
-/

namespace FunctionPipeline.Yaml

/-- What a node stands for: a value, or the container with the node's index. -/
inductive Item where
  | value (v : Value)
  | container (index : Nat)
  deriving Repr

inductive Filling where
  | items (xs : List Item)
  | pairs (ps : List (Item × Item))
  | entries (es : List (Value × Item))
  | members (keys : List Value)
  deriving Repr

/-- What is known of a graph's items: those made so far, the containers that are filled, and those
still to fill, the last one first. -/
structure Construction where
  graph : Graph
  items : List (Nat × Item)
  fillings : List (Nat × Filling)
  waiting : List Nat
  deriving Repr

namespace Construction

def start (g : Graph) : Construction := ⟨g, [], [], []⟩

def keep (c : Construction) (i : Nat) (item : Item) : Item × Construction :=
  (item, { c with items := (i, item) :: c.items })

def awaited (c : Construction) (i : Nat) : Item × Construction :=
  { c with waiting := i :: c.waiting }.keep i (.container i)

def scalar (c : Construction) (i : Nat) (tag : Tag) : Except ReadError (Item × Construction) := do
  let text ← c.graph.textAt (c.graph.size + 1) i
  let v ←
    match c.graph.contentAt i with
    | .scalar _ => ScalarValue.ofText tag i text
    | _ => ScalarValue.ofMapping tag i text
  return c.keep i (.value v)

def item (c : Construction) (i : Nat) : Except ReadError (Item × Construction) :=
  match c.items.find? (·.1 == i) with
  | some (_, item) => .ok (item, c)
  | none =>
      match c.graph.tagAt i with
      | .seq | .map | .set | .omap | .pairs => .ok (c.awaited i)
      | tag => if ScalarValue.isScalarTag tag then c.scalar i tag else .error .malformed

def itemsOf (c : Construction) : List Nat → Except ReadError (List Item × Construction)
  | [] => .ok ([], c)
  | i :: is => do
      let (x, c) ← c.item i
      let (xs, c) ← c.itemsOf is
      return (x :: xs, c)

/-- The entries of a mapping's pairs, the keys of which have to be scalars. -/
def entriesOf (c : Construction) (entries : List (Value × Item)) :
    List (Nat × Nat) → Except ReadError (List (Value × Item) × Construction)
  | [] => .ok (entries, c)
  | (k, v) :: ps => do
      match ← c.item k with
      | (.container _, _) => .error .malformed
      | (.value key, c) =>
          let (x, c) ← c.item v
          c.entriesOf (Entries.put entries key x) ps

/-- The pairs of a list of pairs, each of which is the sole pair of a mapping. -/
def listedOf (c : Construction) :
    List Nat → Except ReadError (List (Item × Item) × Construction)
  | [] => .ok ([], c)
  | i :: is =>
      match c.graph.contentAt i with
      | .mapping [(k, v)] => do
          let (key, c) ← c.item k
          let (x, c) ← c.item v
          let (ps, c) ← c.listedOf is
          return ((key, x) :: ps, c)
      | _ => .error .malformed

def filling (c : Construction) (i : Nat) : Except ReadError (Filling × Construction) :=
  match c.graph.tagAt i, c.graph.contentAt i with
  | .seq, .sequence items => do
      let (xs, c) ← c.itemsOf items
      return (.items xs, c)
  | .omap, .sequence items | .pairs, .sequence items => do
      let (ps, c) ← c.listedOf items
      return (.pairs ps, c)
  | .map, .mapping _ | .set, .mapping _ => do
      let graph ← c.graph.flatten i
      let (es, c) ← { c with graph }.entriesOf [] ((graph.pairsAt? i).getD [])
      return (if c.graph.tagAt i = .set then .members (es.map (·.1)) else .entries es, c)
  | _, _ => .error .malformed

def fillAll (c : Construction) : List Nat → Except ReadError Construction
  | [] => .ok c
  | i :: is => do
      let (filling, c) ← c.filling i
      { c with fillings := (i, filling) :: c.fillings }.fillAll is

def fillLevels : Nat → Construction → Except ReadError Construction
  | 0, c => .ok c
  | fuel + 1, c =>
      if c.waiting.isEmpty then .ok c
      else do
        let c ← { c with waiting := [] }.fillAll c.waiting.reverse
        fillLevels fuel c

/-- The level of a container among those around a place, the nearest one first. A pair in a list
of pairs is a level without an index. -/
def levelOf (i : Nat) (around : List (Option Nat)) : Option Nat :=
  (around.findIdx? (· == some i)).map (· + 1)

def fillingOf? (c : Construction) (i : Nat) : Option Filling :=
  (c.fillings.find? (·.1 == i)).map (·.2)

def valueOf (c : Construction) : Nat → List (Option Nat) → Item → Value
  | 0, _, _ => .null
  | _ + 1, _, .value v => v
  | fuel + 1, around, .container i =>
      match levelOf i around with
      | some level => .enclosing level
      | none =>
          let around := some i :: around
          match c.fillingOf? i with
          | some (.items xs) => .list (xs.map (c.valueOf fuel around))
          | some (.pairs ps) =>
              .list (ps.map fun p =>
                .tuple [c.valueOf fuel (none :: around) p.1, c.valueOf fuel (none :: around) p.2])
          | some (.entries es) => .object (es.map fun e => (e.1, c.valueOf fuel around e.2))
          | some (.members keys) => .set (SetOrder.ofKeys keys)
          | none => .null

end Construction

def Graph.toValue (g : Graph) : Except ReadError Value := do
  let (root, c) ← (Construction.start g).item 0
  let c ← c.fillLevels (g.size + 1)
  return c.valueOf (g.size + 1) [] root

end FunctionPipeline.Yaml

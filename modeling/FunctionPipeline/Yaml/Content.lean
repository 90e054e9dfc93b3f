import FunctionPipeline.Document.SetOrder
import FunctionPipeline.Yaml.ScalarValue

/-!
The value of a node without aliases. Merge keys stand for the pairs of the mappings they name.

Several nodes may have no value. Then the error is that of the container nearest to the root, and
of the first such container: containers are filled level by level.
-/

namespace FunctionPipeline.Yaml

/-- A node's value, with the first error of each level: that of the node itself, of its content,
of the content of the containers in it, and so on. -/
structure Built where
  value : Value
  errors : List (Option ReadError)

namespace Built

def pure (v : Value) : Built := ⟨v, []⟩

def failed (e : ReadError) : Built := ⟨.null, [some e]⟩

def ofScalar (v : Except ReadError Value) : Built :=
  match v with
  | .ok v => .pure v
  | .error e => .failed e

def own (b : Built) : Option ReadError := (b.errors.head?).getD none

end Built

def firstOf (a b : Option ReadError) : Option ReadError :=
  match a with
  | some e => some e
  | none => b

def levels : List (Option ReadError) → List (Option ReadError) → List (Option ReadError)
  | [], es => es
  | es, [] => es
  | a :: as, b :: bs => firstOf a b :: levels as bs

/-- A pair's key and value, of which the key has to be one. -/
structure BuiltPair where
  key : Built
  value : Built

namespace BuiltPair

/-- The first error in the pair itself: of the key, of its use as one, of the value. -/
def own (p : BuiltPair) : Option ReadError :=
  firstOf p.key.own
    (firstOf (if p.key.value.unhashable?.isNone then none else some .malformed) p.value.own)

def errors (p : BuiltPair) : List (Option ReadError) :=
  p.own :: levels (p.key.errors.drop 1) (p.value.errors.drop 1)

/-- The errors of a pair in a list of pairs, where any value may be a key. -/
def listedErrors (p : BuiltPair) : List (Option ReadError) := levels p.key.errors p.value.errors

end BuiltPair

namespace Built

def filled (v : Value) (content : List (List (Option ReadError))) : Built :=
  ⟨v, none :: content.foldl levels []⟩

/-- A container whose content cannot be read stays empty. -/
def unfilled (e : ReadError) : Built := ⟨.list [], [none, some e]⟩

def sequence (items : List Built) : Built :=
  filled (.list (items.map (·.value))) (items.map (·.errors))

def mapping (pairs : List BuiltPair) : Built :=
  filled (.object (Entries.ofList (pairs.map fun p => (p.key.value, p.value.value))))
    (pairs.map BuiltPair.errors)

def set (pairs : List BuiltPair) : Built :=
  let entries := Entries.ofList (pairs.map fun p => (p.key.value, p.value.value))
  filled (.set (SetOrder.ofKeys (Entries.keys entries))) (pairs.map BuiltPair.errors)

/-- A sequence of read-only pairs; broken if an item after them is no pair. -/
def pairs (pairs : List BuiltPair) (broken : Bool) : Built :=
  filled (.list (pairs.map fun p => .tuple [p.key.value, p.value.value]))
    (pairs.map BuiltPair.listedErrors ++ if broken then [[some .malformed]] else [])

def ofPairs (tag : Tag) (found : Except ReadError (List BuiltPair)) : Built :=
  match found with
  | .error e => unfilled e
  | .ok found => if tag = .set then set found else mapping found

end Built

namespace Node

def tag : Node → Tag
  | .alias _ => .null
  | .scalar _ tag _ _ | .sequence _ tag _ _ | .mapping _ tag _ _ => tag

mutual

/-- The text of a scalar, or of the value of a mapping under the key `=`. -/
def text? : Node → Option (List Char)
  | .scalar _ _ _ text => some text
  | .mapping _ _ _ pairs => textIn? pairs
  | _ => none

def textIn? : List (Node × Node) → Option (List Char)
  | [] => none
  | (k, v) :: ps => if k.tag = .value then text? v else textIn? ps

end

def isSoleItem : Node → Bool
  | .mapping _ _ _ [_] => true
  | _ => false

/-- A key that is an equals sign, which counts as a text. -/
def equalsKey (k : Node) : Built :=
  match text? k with
  | some text => .pure (.str (String.ofList text))
  | none => .failed .malformed

mutual

def build : Node → Built
  | .alias _ => .failed .malformed
  | .scalar _ tag number text =>
      match tag with
      | .seq | .map | .set | .omap | .pairs => .unfilled .malformed
      | tag => .ofScalar (ScalarValue.ofText tag number text)
  | .sequence _ tag _ items =>
      match tag with
      | .seq => .sequence (buildItems items)
      | .omap | .pairs => .pairs (listedPairs items) (items.any fun x => !isSoleItem x)
      | .map | .set => .unfilled .malformed
      | _ => .failed .malformed
  | .mapping _ tag number pairs =>
      match tag with
      | .map | .set =>
          .ofPairs tag do return (← mergedPairs pairs) ++ ownPairs pairs
      | .seq | .omap | .pairs => .unfilled .malformed
      | tag =>
          if !ScalarValue.isScalarTag tag then .failed .malformed
          else
            match textIn? pairs with
            | some text => .ofScalar (ScalarValue.ofMapping tag number text)
            | none => .failed .malformed

def buildItems : List Node → List Built
  | [] => []
  | x :: xs => build x :: buildItems xs

def ownPairs : List (Node × Node) → List BuiltPair
  | [] => []
  | (k, v) :: ps =>
      match k.tag with
      | .merge => ownPairs ps
      | .value => ⟨equalsKey k, build v⟩ :: ownPairs ps
      | _ => ⟨build k, build v⟩ :: ownPairs ps

/-- The pairs that the merge keys of a mapping name. -/
def mergedPairs : List (Node × Node) → Except ReadError (List BuiltPair)
  | [] => .ok []
  | (k, v) :: ps => do
      let first ← if k.tag = .merge then mergedFrom v else pure []
      return first ++ (← mergedPairs ps)

/-- The pairs of a mapping that a merge key names, or of several, the last one first. -/
def mergedFrom : Node → Except ReadError (List BuiltPair)
  | .mapping _ _ _ pairs => do return (← mergedPairs pairs) ++ ownPairs pairs
  | .sequence _ _ _ items => do return (← mergedFromItems items).reverse.flatten
  | _ => .error .malformed

def mergedFromItems : List Node → Except ReadError (List (List BuiltPair))
  | [] => .ok []
  | .mapping _ _ _ pairs :: xs => do
      let first := (← mergedPairs pairs) ++ ownPairs pairs
      return first :: (← mergedFromItems xs)
  | _ :: _ => .error .malformed

/-- The pairs that are the items of a list of pairs, up to the first item that is none. -/
def listedPairs : List Node → List BuiltPair
  | .mapping _ _ _ [(k, v)] :: xs => ⟨build k, build v⟩ :: listedPairs xs
  | _ => []

end
def treeValue (root : Node) : Except ReadError Value :=
  let built := build root
  match built.errors.foldl firstOf none with
  | some e => .error e
  | none => .ok built.value

end Node

end FunctionPipeline.Yaml

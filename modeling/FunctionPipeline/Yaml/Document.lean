import FunctionPipeline.Document.Frozen
import FunctionPipeline.Failure
import FunctionPipeline.Yaml.Content
import FunctionPipeline.Yaml.GraphContent
import FunctionPipeline.Yaml.Printer

/-!
Documents as YAML text: `encode` writes an encodable document whose integers have not too many
digits, `decode` reads a text whose root is a mapping. Without aliases a document is a tree, whose
value is read off node by node; aliases make it a graph.
-/

namespace FunctionPipeline.Yaml

namespace Node

mutual

def hasAlias : Node → Bool
  | .alias _ => true
  | .scalar .. => false
  | .sequence _ _ _ items => itemsHaveAlias items
  | .mapping _ _ _ pairs => pairsHaveAlias pairs

def itemsHaveAlias : List Node → Bool
  | [] => false
  | x :: xs => hasAlias x || itemsHaveAlias xs

def pairsHaveAlias : List (Node × Node) → Bool
  | [] => false
  | (k, v) :: ps => hasAlias k || hasAlias v || pairsHaveAlias ps

end

def toValue (root : Node) : Except ReadError Value :=
  if root.hasAlias then (Graph.ofRoot root).toValue else root.treeValue

end Node

/-- The value of the document in a text; a text without a document is null. -/
def load (s : List Char) : Except ReadError Value :=
  match tokens? s with
  | none => .error .malformed
  | some ts => do
      match ← Node.ofTokens ts with
      | some root => root.toValue
      | none => return .null

def encode (document : Value) : Except Failure String :=
  match document.checkEncodable Value.rootPath with
  | .error cause => .error (.ofEncodeError cause)
  | .ok () =>
      if document.hasLongInteger then .error (.fault .longInteger)
      else .ok (String.ofList (write document.thaw))

def decode (text : String) : Except Failure Value :=
  match load text.toList with
  | .error .malformed => .error (.serialization .malformed)
  | .error (.fault cause) => .error (.fault cause)
  | .ok document =>
      if document.isMapping then .ok document
      else .error (.serialization (.rootNotMapping document.typeName))

end FunctionPipeline.Yaml

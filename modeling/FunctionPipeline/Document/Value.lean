import FunctionPipeline.Decimal.Binary64
import FunctionPipeline.Document.Calendar

/-!
Document values. A document is a tree of mappings, sequences and scalars; mappings keep the order
in which their keys were first written. Containers are writable or read-only views. A container
that holds itself is written with a reference to the enclosing level.

`Value.equals` is equality of contents: numbers by value whatever their type, mappings without
regard to order, containers without regard to access, and one not-a-number only with itself.
-/

namespace FunctionPipeline

inductive Access where
  | writable
  | readOnly
  deriving DecidableEq, Repr, Inhabited

inductive Value where
  | null
  | bool (b : Bool)
  | int (i : Int)
  | float (x : Binary64)
  | str (s : String)
  | bytes (octets : List UInt8)
  | date (d : Date)
  | moment (t : Moment)
  /-- Something that is no document value, told apart by a number. -/
  | foreign (identity : Nat)
  | set (members : List Value)
  | sequence (access : Access) (items : List Value)
  | mapping (access : Access) (entries : List (Value × Value))
  /-- The container so many levels up, 1 for the one this stands in. -/
  | enclosing (levels : Nat)
  deriving Repr, Inhabited

abbrev Entries := List (Value × Value)

namespace Value

abbrev object (entries : Entries) : Value := .mapping .writable entries

abbrev list (items : List Value) : Value := .sequence .writable items

abbrev tuple (items : List Value) : Value := .sequence .readOnly items

/-- The name of a value's type in messages. -/
def typeName : Value → String
  | .null => "NoneType"
  | .bool _ => "bool"
  | .int _ => "int"
  | .float _ => "float"
  | .str _ => "str"
  | .bytes _ => "bytes"
  | .date _ => "date"
  | .moment _ => "datetime"
  | .foreign _ => "object"
  | .set _ => "set"
  | .sequence .writable _ => "list"
  | .sequence .readOnly _ => "tuple"
  | .mapping .writable _ => "dict"
  | .mapping .readOnly _ => "mappingproxy"
  | .enclosing _ => "dict"

/-- What counts as a yes: everything but null, false, zero and what is empty. -/
def isTrue : Value → Bool
  | .null => false
  | .bool b => b
  | .int i => i != 0
  | .float x => !x.isZero
  | .str s => !s.isEmpty
  | .bytes octets => !octets.isEmpty
  | .set members => !members.isEmpty
  | .sequence _ items => !items.isEmpty
  | .mapping _ entries => !entries.isEmpty
  | _ => true

/-- A number's place on the number line in the unit of doubles; booleans count as 0 and 1. -/
def position? : Value → Option Binary64.Position
  | .bool b => some (.at (if b then Binary64.unit else 0))
  | .int i => some (.at (i * Binary64.unit))
  | .float x => x.position?
  | _ => none

def scalarEquals : Value → Value → Bool
  | .null, .null => true
  | .int i, .int j => i == j
  | .float (.nan a), .float (.nan b) => a == b
  | .str s, .str t => s == t
  | .bytes s, .bytes t => s == t
  | .date d, .date e => d == e
  | .moment s, .moment t => s.same t
  | .foreign a, .foreign b => a == b
  | .enclosing a, .enclosing b => a == b
  | v, w =>
      match v.position?, w.position? with
      | some p, some q => p == q
      | _, _ => false

mutual

def equals : Value → Value → Bool
  | .sequence a xs, .sequence b ys => a == b && equalsAll xs ys
  | .set xs, .set ys => xs.length == ys.length && membersIn xs ys
  | .mapping _ xs, .mapping _ ys => xs.length == ys.length && entriesIn xs ys
  | v, w => scalarEquals v w

def equalsAll : List Value → List Value → Bool
  | [], [] => true
  | x :: xs, y :: ys => equals x y && equalsAll xs ys
  | _, _ => false

/-- Every member occurs in the other set. -/
def membersIn : List Value → List Value → Bool
  | [], _ => true
  | x :: xs, ys => ys.any (fun y => equals x y) && membersIn xs ys

/-- Every entry's key occurs in the other mapping with an equal value. -/
def entriesIn : List (Value × Value) → List (Value × Value) → Bool
  | [], _ => true
  | (k, v) :: xs, ys =>
      (match ys.find? (fun e => equals k e.1) with
        | some e => equals v e.2
        | none => false) && entriesIn xs ys

end

mutual

/-- The type of the first part of a key that cannot be looked up, such as a writable container. -/
def unhashable? : Value → Option String
  | .sequence .readOnly items => unhashableIn? items
  | .sequence .writable _ => some "list"
  | .mapping .writable _ => some "dict"
  | .mapping .readOnly _ => some "mappingproxy"
  | .set _ => some "set"
  | _ => none

def unhashableIn? : List Value → Option String
  | [] => none
  | x :: xs =>
      match unhashable? x with
      | some type => some type
      | none => unhashableIn? xs

end

mutual

/-- Whether a value holds a reference to an enclosing container, so that it is no finite tree. -/
def hasReference : Value → Bool
  | .sequence _ items => anyReference items
  | .mapping _ entries => entryReference entries
  | .enclosing _ => true
  | _ => false

def anyReference : List Value → Bool
  | [] => false
  | x :: xs => hasReference x || anyReference xs

def entryReference : List (Value × Value) → Bool
  | [] => false
  | (_, v) :: es => hasReference v || entryReference es

end

mutual

/-- Puts `whole` in place of the references to the level `depth` above. -/
def resolve (whole : Value) (depth : Nat) : Value → Value
  | .sequence a items => .sequence a (resolveAll whole (depth + 1) items)
  | .mapping a entries => .mapping a (resolveEntries whole (depth + 1) entries)
  | .enclosing levels => if levels = depth then whole else .enclosing levels
  | v => v

def resolveAll (whole : Value) (depth : Nat) : List Value → List Value
  | [] => []
  | x :: xs => resolve whole depth x :: resolveAll whole depth xs

def resolveEntries (whole : Value) (depth : Nat) : List (Value × Value) → List (Value × Value)
  | [] => []
  | (k, v) :: es => (k, resolve whole depth v) :: resolveEntries whole depth es

end

/-- The entries of a mapping as values of their own: a reference to the mapping is the mapping. -/
def entries? (v : Value) : Option Entries :=
  match v with
  | .mapping _ entries => some (if v.hasReference then resolveEntries v 1 entries else entries)
  | _ => none

/-- The items of a sequence as values of their own. -/
def items? (v : Value) : Option (List Value) :=
  match v with
  | .sequence _ items => some (if v.hasReference then resolveAll v 1 items else items)
  | _ => none

def isMapping : Value → Bool
  | .mapping .. => true
  | _ => false

end Value

namespace Entries

variable {α : Type}

def get? (entries : List (Value × α)) (key : Value) : Option α :=
  (entries.find? fun e => key.equals e.1).map (·.2)

def field? (entries : List (Value × α)) (name : String) : Option α :=
  get? entries (.str name)

/-- Writes something under a key: in place if the key is there, else at the end. -/
def put : List (Value × α) → Value → α → List (Value × α)
  | [], key, value => [(key, value)]
  | (k, v) :: rest, key, value =>
      if key.equals k then (k, value) :: rest else (k, v) :: put rest key value

def erase (entries : List (Value × α)) (key : Value) : List (Value × α) :=
  entries.filter fun e => !key.equals e.1

def keys (entries : List (Value × α)) : List Value := entries.map (·.1)

/-- Entries written one after the other: a later one takes the place of an earlier one with an
equal key. -/
def ofList (pairs : List (Value × α)) : List (Value × α) :=
  pairs.foldl (fun es e => put es e.1 e.2) []

/-- All entries of `other` written after those of `entries`. -/
def update (entries other : List (Value × α)) : List (Value × α) :=
  other.foldl (fun es e => put es e.1 e.2) entries

/-- The value under a text key, or something else in its place if it counts as no. -/
def orElse (entries : Entries) (key : String) (other : Value) : Value :=
  match field? entries key with
  | some v => if v.isTrue then v else other
  | none => other

end Entries

/-- The value under a text key of something that may be no mapping. -/
def Value.part? (v : Value) (key : String) : Option Value :=
  (v.entries?).bind fun entries => Entries.field? entries key

end FunctionPipeline

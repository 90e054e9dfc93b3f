import FunctionPipeline.Document.Access
import FunctionPipeline.SourceMap.Location
import FunctionPipeline.SourceMap.Mappings

/-!
Source maps, and the place in a source that a place in the generated text comes from.
-/

namespace FunctionPipeline

/-- A source map: the names of the sources, what stands before each of them, and the segments of
each generated line by column. -/
structure SourceMap where
  sources : List Value
  root : Value
  lines : List (List Segment)
  deriving Repr, Inhabited

namespace SourceMap

inductive Error where
  | mappings (cause : Vlq.Error)
  | shape (cause : Fault)
  deriving Repr

/-- The source map that data describes; what is absent is empty. -/
def ofData (data : Value) : Except Error SourceMap :=
  let parts : Except Fault (List Value × Value × String) := do
    let sources ← ((← data.lookUp "sources").getD (.list [])).elements
    let root := ((← data.lookUp "sourceRoot").getD .null)
    match (← data.lookUp "mappings").getD (.str "") with
    | .str mappings => return (sources, if root.isTrue then root else .str "", mappings)
    | .bytes _ => throw (.notOctets "str")
    | v => throw (.noAttribute v.typeName "split")
  match parts with
  | .error cause => .error (.shape cause)
  | .ok (sources, root, mappings) =>
      match Mappings.decode mappings.toList with
      | .error (.segment cause) => .error (.mappings cause)
      | .error .noColumn => .error (.shape (.indexOutOfRange "list"))
      | .ok lines => .ok ⟨sources, root, lines⟩

/-- The last segment that a column reaches, or the first one if it reaches none. -/
def chosen (reaches : Int → Bool) (line : List Segment) : Option Segment :=
  match (line.takeWhile fun s => reaches s.column).getLast? with
  | some s => some s
  | none => line.head?

def withoutSlashes (s : String) : String :=
  String.ofList (s.toList.reverse.dropWhile (· = '/')).reverse

/-- The name of the source with an index; a negative one counts from the end. -/
def sourceName (m : SourceMap) (index : Int) : Except Fault Value :=
  let place := if index < 0 then index + m.sources.length else index
  match if place < 0 then none else m.sources[place.toNat]? with
  | none => .error (.indexOutOfRange "list")
  | some name =>
      if m.root.isTrue then
        match m.root with
        | .str root => name.shown.map fun name => .str (withoutSlashes root ++ "/" ++ name)
        | .bytes _ => .error (.notOctets "str")
        | v => .error (.noAttribute v.typeName "rstrip")
      else .ok name

def placeOf (m : SourceMap) (s : Segment) : Except Fault (Option Location) :=
  match s.origin with
  | none => .ok none
  | some origin =>
      if origin.source ≥ m.sources.length then .ok none
      else do
        let file ← m.sourceName origin.source
        return some ⟨file, .int (origin.line + 1), .int origin.column⟩

/-- The place that a line, from 1 on, has where a column reaches the segments given by it. -/
def lookUp (m : SourceMap) (line : Int) (reaches : Int → Bool) : Except Fault (Option Location) :=
  if line < 1 then .ok none
  else
    match (m.lines[(line - 1).toNat]?).bind (chosen reaches) with
    | some s => m.placeOf s
    | none => .ok none

/-- The place in a source that a line, from 1 on, and a column, from 0 on, come from. -/
def sourceAt (m : SourceMap) (line column : Int) : Except Fault (Option Location) :=
  m.lookUp line fun start => start ≤ column

/-- A number as a place on the number line; what is none has no order. -/
def asPosition (v : Value) : Except Fault (Option Binary64.Position) :=
  match v with
  | .bool _ | .int _ | .float _ => .ok v.position?
  | _ => .error (.unordered v.typeName "int")

def isBefore (p : Option Binary64.Position) (n : Int) : Bool :=
  (p.map (·.before (.at (n * Binary64.unit)))).getD false

/-- The place for a line and a column as a tool reported them, which may be any values. -/
def sourceFor (m : SourceMap) (line column : Value) : Except Fault (Option Location) := do
  let place ← asPosition line
  let last : Binary64.Position := .at (m.lines.length * Binary64.unit)
  let beyond := (place.map last.before).getD false
  if isBefore place 1 || beyond then return none
  let line : Int ← match line with
    | .int i => pure i
    | .bool b => pure (if b then 1 else 0)
    | v => throw (.badIndex "list" v.typeName)
  if ((m.lines[(line - 1).toNat]?).getD []).isEmpty then return none
  let column ← asPosition column
  m.lookUp line fun start => !isBefore column start

end SourceMap

end FunctionPipeline

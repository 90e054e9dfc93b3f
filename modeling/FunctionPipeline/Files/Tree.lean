import FunctionPipeline.Fault
import FunctionPipeline.Files.Path
import FunctionPipeline.Text.Utf8

/-!
Directories and files as a value. A place is the list of names from the root; the root is always a
directory. A path leads to a place if everything on the way is a directory.
-/

namespace FunctionPipeline

inductive FileNode where
  | directory
  | file (octets : List UInt8)
  deriving DecidableEq, Repr, Inhabited

/-- Directories and files by place. -/
structure FileTree where
  nodes : List (List String × FileNode)
  deriving Repr, Inhabited

namespace FileTree

def node? (t : FileTree) (place : List String) : Option FileNode :=
  if place.isEmpty then some .directory else t.nodes.lookup place

def erase (t : FileTree) (place : List String) : FileTree :=
  ⟨t.nodes.filter fun e => e.1 ≠ place⟩

def put (t : FileTree) (place : List String) (node : FileNode) : FileTree :=
  ⟨(place, node) :: (t.erase place).nodes⟩

/-- The most octets a name may have. -/
def nameLimit : Nat := 255

def isTooLong (name : String) : Bool := (Utf8.encode name.toList).length > nameLimit

def nullFault : Fault := .badValue "embedded null byte"

/-- The place that names lead to from a directory, for a path with a text. -/
def walk (t : FileTree) (text : String) (place : List String) :
    List String → Except Fault (List String)
  | [] => .ok place
  | name :: rest =>
      match t.node? place with
      | none => .error (.noSuchFile text)
      | some (.file _) => .error (.notDirectory text)
      | some .directory =>
          if isTooLong name then .error (.nameTooLong text)
          else walk t text (if name = ".." then place.dropLast else place ++ [name]) rest

/-- The place of a path. Nothing need stand there yet. -/
def locate (t : FileTree) (p : Path) : Except Fault (List String) :=
  if p.hasNull then .error nullFault else t.walk p.text [] p.fromRoot

/-- What stands where a path leads; a path through what is no directory leads nowhere. -/
def find? (t : FileTree) (p : Path) : Except Fault (Option FileNode) :=
  match t.locate p with
  | .ok place => .ok (t.node? place)
  | .error (.nameTooLong text) => .error (.nameTooLong text)
  | .error _ => .ok none

def holds (t : FileTree) (p : Path) : Except Fault Bool := do return (← t.find? p).isSome

def holdsFile (t : FileTree) (p : Path) : Except Fault Bool := do
  match ← t.find? p with
  | some (.file _) => return true
  | _ => return false

/-- Follows names from a directory. An empty name or a dot stays where it is, which has to be a
directory too. -/
def follow (t : FileTree) (place : List String) : List String → Option (List String)
  | [] => some place
  | name :: rest =>
      match t.node? place with
      | some .directory =>
          if name = "" || name = "." then follow t place rest
          else if name = ".." then follow t place.dropLast rest
          else if isTooLong name then none
          else follow t (place ++ [name]) rest
      | _ => none

/-- What stands where the text of a path leads. Unlike a path, a text with a slash at its end leads
to directories only, and the empty text leads nowhere. -/
def atText? (t : FileTree) (text : String) : Option FileNode :=
  if text.isEmpty then none
  else
    let start := if text.startsWith "/" then [] else Path.workDirectory.names
    (t.follow start (cutText '/' text)).bind t.node?

def octets (t : FileTree) (p : Path) : Except Fault (List UInt8) := do
  match t.node? (← t.locate p) with
  | some (.file octets) => return octets
  | some .directory => throw (.isDirectory p.text)
  | none => throw (.noSuchFile p.text)

def withLineFeeds : List Char → List Char
  | '\r' :: '\n' :: rest => '\n' :: withLineFeeds rest
  | '\r' :: rest => '\n' :: withLineFeeds rest
  | c :: rest => c :: withLineFeeds rest
  | [] => []

/-- The text of a file, its line ends as line feeds. -/
def readText (t : FileTree) (p : Path) : Except Fault String := do
  match Utf8.decode? (← t.octets p) with
  | some cs => return String.ofList (withLineFeeds cs)
  | none => throw .undecodable

def makeDirectory (t : FileTree) (p : Path) : Except Fault FileTree := do
  let place ← t.locate p
  match t.node? place with
  | some _ => throw (.fileExists p.text)
  | none => return t.put place .directory

def holdsDirectory (t : FileTree) (p : Path) : Bool :=
  match t.find? p with
  | .ok (some .directory) => true
  | _ => false

/-- Makes one directory; one that is there already will do. -/
def ensureDirectory (t : FileTree) (p : Path) : Except Fault FileTree :=
  match t.makeDirectory p with
  | .ok made => .ok made
  | .error cause => if t.holdsDirectory p then .ok t else .error cause

/-- Makes a directory whose names are given from the last one on, and the directories above it
where they are missing. Directories made before a failure stay. -/
def ensureAll (t : FileTree) (start : PathStart) : List String → FileTree × Except Fault Unit
  | [] => (t, .ok ())
  | name :: above =>
      let p : Path := ⟨start, (name :: above).reverse⟩
      match t.ensureDirectory p with
      | .ok made => (made, .ok ())
      | .error (.noSuchFile text) =>
          if above.isEmpty then (t, .error (.noSuchFile text))
          else
            match ensureAll t start above with
            | (made, .error cause) => (made, .error cause)
            | (made, .ok ()) =>
                match made.ensureDirectory p with
                | .ok made => (made, .ok ())
                | .error cause => (made, .error cause)
      | .error cause => (t, .error cause)

def makeDirectories (t : FileTree) (p : Path) : FileTree × Except Fault Unit :=
  t.ensureAll p.start p.names.reverse

end FileTree

end FunctionPipeline

import FunctionPipeline.Files.Tree
import FunctionPipeline.Text.Encoding

/-!
Writing a file so that its old content or its new one is there, and nothing between. The text goes
to a temporary file beside the target, which then takes the target's place. After a failure the
temporary file is removed if the medium lets it be closed and removed; directories made for the
target stay.
-/

namespace FunctionPipeline.FileTree

def temporaryName (target : String) (stamp : Nat) : String :=
  "." ++ target ++ "." ++ String.ofList (hexDigits 8 stamp) ++ ".tmp"

/-- How many names for a temporary file are tried. -/
def stampCount : Nat := 10000

def freePlace? (t : FileTree) (directory : List String) (target : String) (stamp : Nat) :
    Nat → Option (List String)
  | 0 => none
  | tries + 1 =>
      let place := directory ++ [temporaryName target stamp]
      if (t.node? place).isNone then some place
      else freePlace? t directory target (stamp + 1) tries

def makeTemporary (t : FileTree) (p : Path) : Except Fault (FileTree × List String) := do
  let directory ← t.locate p.parent
  if p.hasNull then throw nullFault
  if isTooLong (temporaryName p.name 0) then throw (.nameTooLong p.text)
  match t.freePlace? directory p.name 0 stampCount with
  | some place => return (t.put place (.file []), place)
  | none => throw (.fileExists p.text)

/-- Moves the file at a place to where a path leads, over a file that stands there. -/
def replace (t : FileTree) (place : List String) (p : Path) : Except Fault FileTree := do
  if p.names.isEmpty || p.name = ".." then throw (.busy p.text)
  let target ← t.locate p
  match t.node? place, t.node? target with
  | _, some .directory => throw (.isDirectory p.text)
  | some node, _ => return (t.erase place).put target node
  | none, _ => throw (.noSuchFile p.text)

/-- What the medium under the files refuses while one of them is written, step by step, and how many
octets come through in a write that it refuses. -/
structure Medium where
  directories : Option Fault := none
  create : Option Fault := none
  write : Option Fault := none
  flush : Option Fault := none
  sync : Option Fault := none
  close : Option Fault := none
  move : Option Fault := none
  remove : Option Fault := none
  through : Nat := 0
  deriving Repr, Inhabited

def Medium.Clears (m : Medium) : Prop := m.close = none ∧ m.remove = none

/-- Removes a temporary file after a failure. One that cannot be removed stays, and that is the
failure then. -/
def discard (t : FileTree) (place : List String) (m : Medium) (cause : Fault) :
    FileTree × Except Fault Unit :=
  match m.remove with
  | some again => (t, .error again)
  | none => (t.erase place, .error cause)

/-- Gives up a temporary file that is still open. Closing it tries once more to write what has not
come through, and if that is refused too, the file is not removed. -/
def abandon (t : FileTree) (place : List String) (m : Medium) (cause : Fault) :
    FileTree × Except Fault Unit :=
  match m.close with
  | some again => (t, .error again)
  | none => t.discard place m cause

/-- The octets that are in a temporary file after it was filled, and the failure if that failed. -/
def filled (m : Medium) : Except Fault (List UInt8) → List UInt8 × Option Fault
  | .error cause => ([], some cause)
  | .ok octets =>
      match m.write.or m.flush with
      | some cause => (octets.take m.through, some cause)
      | none => (octets, m.sync)

/-- Puts a full temporary file in the place of the target. The medium is asked after the tree. -/
def settle (t : FileTree) (place : List String) (p : Path) (m : Medium) :
    FileTree × Except Fault Unit :=
  match t.replace place p, m.move with
  | .error cause, _ | .ok _, some cause => t.discard place m cause
  | .ok done, none => (done, .ok ())

/-- Fills a temporary file and puts it in the place of the target. A full file that cannot be closed
stays. -/
def complete (t : FileTree) (place : List String) (p : Path) (m : Medium)
    (given : Except Fault (List UInt8)) : FileTree × Except Fault Unit :=
  let (octets, failed) := filled m given
  let started := t.put place (.file octets)
  match failed, m.close with
  | some cause, _ => started.abandon place m cause
  | none, some cause => (started, .error cause)
  | none, none => started.settle place p m

def usualEncoding : String := "utf-8"

/-- Makes the directory of a path if it is missing. What the medium refuses, it refuses before any
directory is made. -/
def prepare (t : FileTree) (p : Path) (m : Medium) : FileTree × Except Fault Unit :=
  match m.directories with
  | some cause => if t.holdsDirectory p.parent then (t, .ok ()) else (t, .error cause)
  | none => t.makeDirectories p.parent

/-- Writes a text to where a path leads. A null character in the encoding's name is refused before
the encoding is looked for. What the codec holds back is never asked for. -/
def writeText (t : FileTree) (p : Path) (text encoding : String) (codecs : Codecs := .usual)
    (m : Medium := {}) : FileTree × Except Fault Unit :=
  match t.prepare p m with
  | (made, .error cause) => (made, .error cause)
  | (made, .ok ()) =>
      if encoding.toList.contains '\x00' then (made, .error nullFault)
      else
        match made.makeTemporary p, m.create with
        | .error cause, _ | .ok _, some cause => (made, .error cause)
        | .ok (started, place), none =>
            match codecs.find? encoding with
            | none => started.discard place m (.unknownEncoding encoding)
            | some codec => started.complete place p m (codec.given text.toList)

end FunctionPipeline.FileTree

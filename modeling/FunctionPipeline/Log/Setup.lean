import FunctionPipeline.Files.Tree
import FunctionPipeline.Log.Record
import FunctionPipeline.Text.Upper

/-!
Where log records go. A logger has a level and handlers; a record of a lower level is dropped.
-/

namespace FunctionPipeline

inductive LogHandler where
  | file
  | consoleReadable
  | consoleStructured
  deriving DecidableEq, Repr

def LogHandler.name : LogHandler → String
  | .file => "FileHandler"
  | .consoleReadable => "RichHandler"
  | .consoleStructured => "StreamHandler"

structure LogRequest where
  file : Option Path := none
  level : Value := .str "INFO"
  format : Value := .str "pretty"
  console : Value := .bool true
  deriving Repr, Inhabited

structure LogSetup where
  level : LogLevel
  handlers : List LogHandler
  isStructured : Bool
  deriving Repr

namespace LogSetup

/-- A level as it is asked for, in letters of any case. -/
def levelOf (v : Value) : Except Fault LogLevel :=
  match v with
  | .str s =>
      let name := upperCase s
      match LogLevel.ofName? name with
      | some level => .ok level
      | none =>
          if name = "BASIC_FORMAT" then .error (.badValue ("Unknown level: " ++ Quoted.text s))
          else if name = "_STYLES" then .error .levelNotNumber
          else .error (.unknownLevel name)
  | .bytes _ => .error .levelNotNumber
  | v => .error (.noAttribute v.typeName "upper")

def consoleHandler (format : Value) : LogHandler :=
  if format.equals (.str "pretty") then .consoleReadable else .consoleStructured

/-- An open log file: the directories above it are made, and the file if it is missing. -/
def openFile (t : FileTree) (p : Path) : FileTree × Except Fault Unit :=
  match t.makeDirectories p.parent with
  | (made, .error cause) => (made, .error cause)
  | (made, .ok ()) =>
      match made.locate p with
      | .error cause => (made, .error cause)
      | .ok place =>
          match made.node? place with
          | some .directory => (made, .error (.isDirectory p.text))
          | some (.file _) => (made, .ok ())
          | none => (made.put place (.file []), .ok ())

def ofRequest (t : FileTree) (request : LogRequest) : FileTree × Except Fault LogSetup :=
  match levelOf request.level with
  | .error cause => (t, .error cause)
  | .ok level =>
      let console := if request.console.isTrue then [consoleHandler request.format] else []
      let isStructured := request.format.equals (.str "structured")
      match request.file with
      | none => (t, .ok ⟨level, console, isStructured⟩)
      | some path =>
          match openFile t path with
          | (t, .error cause) => (t, .error cause)
          | (t, .ok ()) => (t, .ok ⟨level, .file :: console, isStructured⟩)

/-- The level that a record has to reach. A logger without a level takes warnings. -/
def leastRank (s : LogSetup) : Nat :=
  match s.level with
  | .unset => LogLevel.warning.rank
  | level => level.rank

def drops (s : LogSetup) (level : LogLevel) : Bool := level.rank < s.leastRank

/-- The line of a record in the log file without its time; none if the record is dropped or has
no form. -/
def line? (s : LogSetup) (r : LogRecord) : Option String :=
  if s.drops r.level then none
  else if s.isStructured then r.structuredLine.toOption
  else some r.readableLine

end LogSetup

end FunctionPipeline

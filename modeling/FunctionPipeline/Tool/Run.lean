import FunctionPipeline.Activity
import FunctionPipeline.Document.Access
import FunctionPipeline.Json.Reader
import FunctionPipeline.Text.Shortened

/-!
Outside tools. A tool is a driver script for an outside program; the driver takes one JSON value and
answers with a JSON object.
-/

namespace FunctionPipeline

/-- A tool: the program, the driver it runs, how long that may take, and the directory from which
the driver finds its packages. -/
structure Tool where
  program : Value
  driver : String
  timeout : Value
  directory : Option Path
  deriving Repr, Inhabited

namespace Tool

def drivers : List String := ["bundle.cjs", "downgrade.cjs", "run.cjs"]

def driverDirectory : String := "/drivers"

def driverPath (t : Tool) : String :=
  ((Path.ofText driverDirectory).join (Path.ofText t.driver)).text

def command (t : Tool) : Except Fault (List String) :=
  match t.program with
  | .str program => .ok [program, t.driverPath]
  | v => .error (.itemNotText 0 v.typeName)

def directoryText (directory : Option Path) : String := (directory.map Path.text).getD "None"

def startRecord (t : Tool) (command : List String) (directory : Option Path) : LogRecord :=
  { level := .debug
    logger := loggerName "tools"
    message := "Executing: " ++ joined " " command
    event := some (.str "tool_started")
    metadata := some (.object [(.str "tool", .str t.driver),
      (.str "cwd", .str (directoryText directory))]) }

/-- The most characters of an error report and of wrong output that a message quotes. -/
def reportLimit : Int := 500
def outputLimit : Int := 200

inductive ReplyError where
  | tool (cause : ToolError)
  | fault (cause : Fault)

def ReplyError.of (v : Value) (telling : String → ToolError) : ReplyError :=
  match v.shown with
  | .ok text => .tool (telling text)
  | .error cause => .fault cause

def outputOf (t : Tool) : Reply → Except ReplyError String
  | .notFound => .error (.of t.program .notFound)
  | .timedOut => .error (.of t.timeout (.timedOut t.driver))
  | .finished code output report =>
      if code = 0 then .ok output
      else
        .error (.tool (.exited t.driver code
          (if report.isEmpty then none else some (shortened report reportLimit))))

def parsed (t : Tool) (output : String) : Except ReplyError Entries :=
  match Json.read output.toList with
  | .error .malformed => .error (.tool (.notJson t.driver (shortened output outputLimit)))
  | .error (.tooManyDigits count) => .error (.fault (.tooManyDigits count))
  | .ok (.mapping _ entries) => .ok entries
  | .ok v => .error (.tool (.notObject t.driver v.typeName))

/-- The members of the object with which a driver replies, or the failure that a caller makes of a
run without one. -/
def replyOf (t : Tool) (failing : ToolError → Failure) (reply : Reply) : Except Failure Entries :=
  match t.outputOf reply >>= t.parsed with
  | .error (.tool cause) => .error (failing cause)
  | .error (.fault cause) => .error (.fault cause)
  | .ok entries => .ok entries

def run (t : Tool) (failing : ToolError → Failure) (payload : Value) (directory : Option Path) :
    Operation Entries := do
  let command ← Operation.ofFault t.command
  Operation.log (t.startRecord command directory)
  let input ← Operation.ofFault (Json.write .refuse payload)
  let reply ← Operation.start ⟨command, input, directory, t.timeout⟩
  Operation.ofExcept (t.replyOf failing reply)

structure Readiness where
  errors : List String
  warnings : List String
  deriving DecidableEq, Repr

def Readiness.valid (r : Readiness) : Bool := r.errors.isEmpty

/-- Whether a driver script is there; the directory of the drivers is. -/
def hasDriver (t : Tool) : Bool :=
  (driverDirectory :: drivers.map fun name => driverDirectory ++ "/" ++ name).contains t.driverPath

def packageWarnings (files : FileTree) : Option Path → Except Fault (List String)
  | none => .ok []
  | some directory => do
      if ← files.holds (directory.join (Path.ofText "node_modules")) then return []
      return ["No node_modules in " ++ directory.text ++
        "; packages are resolved from parent directories"]

def readiness (t : Tool) (programFound : Bool) (files : FileTree) : Except Fault Readiness := do
  let program ← if programFound then pure []
    else t.program.shown.map fun name => ["Node executable not found: " ++ name]
  let driver := if t.hasDriver then [] else ["Driver script not found: " ++ t.driverPath]
  return ⟨program ++ driver, ← packageWarnings files t.directory⟩

def firstError (reply : Entries) (usual : String) : Except Fault (Value × Nat) := do
  let usualErrors : Value := .list [.object [(.str "text", .str usual)]]
  let errors := Entries.orElse reply "errors" usualErrors
  return (← errors.first, (errors.count.toOption).getD 1)

def isOk (reply : Entries) : Bool := (Entries.orElse reply "ok" .null).isTrue

end Tool

end FunctionPipeline

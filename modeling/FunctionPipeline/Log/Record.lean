import FunctionPipeline.Document.Value
import FunctionPipeline.Json.Writer

/-!
Log records, and the two forms of their lines in a log file.
-/

namespace FunctionPipeline

inductive LogLevel where
  | unset
  | debug
  | info
  | warning
  | error
  | critical
  deriving DecidableEq, Repr, Inhabited

namespace LogLevel

def rank : LogLevel → Nat
  | .unset => 0
  | .debug => 10
  | .info => 20
  | .warning => 30
  | .error => 40
  | .critical => 50

def name : LogLevel → String
  | .unset => "NOTSET"
  | .debug => "DEBUG"
  | .info => "INFO"
  | .warning => "WARNING"
  | .error => "ERROR"
  | .critical => "CRITICAL"

def names : List (String × LogLevel) :=
  [("NOTSET", .unset), ("DEBUG", .debug), ("INFO", .info), ("WARNING", .warning),
   ("WARN", .warning), ("ERROR", .error), ("CRITICAL", .critical), ("FATAL", .critical)]

def ofName? (name : String) : Option LogLevel := names.lookup name

end LogLevel

def rootLogger : String := "inlinefn"

/-- The name of a logger below the root logger; no name stands for the root logger itself. -/
def loggerName (child : String) : String :=
  if child.isEmpty then rootLogger else rootLogger ++ "." ++ child

structure LogRecord where
  level : LogLevel
  logger : String
  message : String
  stage : Option Value := none
  event : Option Value := none
  metadata : Option Value := none
  deriving Repr, Inhabited

namespace LogRecord

def ownNames : List String :=
  ["name", "msg", "args", "levelname", "levelno", "pathname", "filename", "module", "exc_info",
   "exc_text", "stack_info", "lineno", "funcName", "created", "msecs", "relativeCreated", "thread",
   "threadName", "processName", "process", "message", "asctime"]

/-- Refuses to add something to a record under the name of one of its own parts. -/
def checkAddition (addition : Entries) : Except Fault Unit :=
  match ownNames.find? fun name => (Entries.field? addition name).isSome with
  | some name => .error (.ownName name)
  | none => .ok ()

/-- The parts of a record that it need not have, with their names. -/
def extras (r : LogRecord) : Entries :=
  [("stage", r.stage), ("event", r.event), ("metadata", r.metadata)].filterMap fun (name, v?) =>
    v?.map fun v => (.str name, v)

def toEntries (r : LogRecord) : Entries :=
  [(.str "level", .str r.level.name), (.str "logger", .str r.logger),
   (.str "message", .str r.message)] ++ r.extras

/-- The structured line of a record without its time. What has no interchange form is described
by its text. -/
def structuredLine (r : LogRecord) : Except Fault String :=
  Json.write .describe (.object r.toEntries)

def readableLine (r : LogRecord) : String :=
  s!" - {r.logger} - {r.level.name} - {r.message}"

end LogRecord

end FunctionPipeline

import FunctionPipeline.Invocation.Builder
import FunctionPipeline.Tool.Downgrader

/-!
The script engine: it runs a function's source in an outside program. The driver answers with the
calls that the function made on its response, and they are carried out on the builder in order. A
function that failed made no calls.
-/

namespace FunctionPipeline

/-- A script engine, with the dialect for sources that have to be transpiled first. -/
structure Engine where
  tool : Tool
  dialect : Value
  deriving Repr, Inhabited

namespace Engine

def driver : String := "run.cjs"

def usual : Engine := ⟨⟨Config.usualProgram, driver, .int 30, none⟩, .str Dialect.usual⟩

def failing (cause : ToolError) : Failure := .execution (.tool cause)

def downgrader (e : Engine) : Downgrader := .plain e.tool.program e.tool.timeout e.tool.directory

def notTranspiled (failure : Failure) : Failure :=
  match failure with
  | .downgrade .. =>
      match failure.message with
      | .ok text => .execution (.notTranspiled text)
      | .error cause => .fault cause
  | failure => failure

def transpiled (e : Engine) (source : String) : Operation String := do
  match ← Operation.outcome (e.downgrader.downgrade source e.dialect) with
  | .ok source => return source
  | .error failure => throw (notTranspiled failure)

def payload (source : String) (request : Request) : Value :=
  .object [(.str "source", .str source), (.str "request", request.toValue)]

def levels : List (String × LogLevel) :=
  [("debug", .debug), ("info", .info), ("warning", .warning), ("error", .error)]

def levelOf (v : Value) : Except Fault LogLevel := do
  match ← v.asKey with
  | .str name => return (levels.lookup name).getD .info
  | _ => return .info

def entryRecord (tag entry : Value) : Except Fault LogRecord := do
  let level ← levelOf ((← entry.lookUp "level").getD .null)
  let message ← ((← entry.lookUp "message").getD (.str "")).shown
  return {
    level, logger := loggerName "tools", message
    event := some (.str "function_log")
    metadata := some (.object [(.str "tag", tag)]) }

def logEntries (tag : Value) : List Value → Operation Unit
  | [] => pure ()
  | entry :: rest => do
      Operation.log (← Operation.ofFault (entryRecord tag entry))
      logEntries tag rest

/-- The names of the calls in a reply, with how many arguments each takes. -/
def arities : List (String × Nat) :=
  [("setDesiredComposedResource", 2), ("setConnectionDetails", 1), ("updateCompositeStatus", 1)]

/-- The call with a name and as many arguments as it takes. -/
def callOf? (name : String) (arguments : List Value) : Option Call :=
  match name, arguments with
  | "setDesiredComposedResource", [name, body] => some (.setResource name body)
  | "setConnectionDetails", [details] => some (.setDetails details)
  | "updateCompositeStatus", [status] => some (.updateStatus status)
  | _, _ => none

def callParts (call : Value) : Except Fault (Value × Value) := do
  let operation := (← call.lookUp "op").getD .null
  let arguments := (← call.lookUp "args").getD .null
  return (← operation.asKey, if arguments.isTrue then arguments else .list [])

def arity? (operation : Value) : Option (String × Nat) :=
  match operation with
  | .str name => (arities.lookup name).map fun arity => (name, arity)
  | _ => none

def unknownCall (operation : Value) : Failure :=
  match operation.shown with
  | .ok name => .execution (.unknownOperation name)
  | .error cause => .fault cause

def callIn (call : Value) : Except Failure Call :=
  match callParts call with
  | .error cause => .error (.fault cause)
  | .ok (operation, arguments) =>
      match arity? operation with
      | none => .error (unknownCall operation)
      | some (name, arity) =>
          match arguments.count with
          | .error cause => .error (.fault cause)
          | .ok given =>
              match callOf? name ((arguments.elements.toOption).getD []) with
              | some call => .ok call
              | none => .error (.execution (.wrongArity name arity given))

/-- Carries out the recorded calls in order, up to the first one that is refused. -/
def replay (b : Builder) : List Value → Except Failure Builder
  | [] => .ok b
  | call :: rest => do replay (← b.apply (← callIn call)) rest

/-- The most characters of a function's own report that a message quotes. -/
def reportLimit : Int := 1000

def reported (reply : Entries) : Except Fault Failure := do
  let report := Entries.orElse reply "error" (.str "function failed")
  return .execution (.reported (← report.shortened reportLimit))

def execute (e : Engine) (source : String) (request : Request) (transpile : Bool)
    (b : Builder) : Operation Builder := do
  let source ← if transpile then e.transpiled source else pure source
  let reply ← e.tool.run failing (payload source request) e.tool.directory
  let entries ← Operation.ofFault ((Entries.field? reply "logs").getD (.list [])).elements
  logEntries request.tag entries
  if !Tool.isOk reply then throw (← Operation.ofFault (reported reply))
  let calls ← Operation.ofFault ((Entries.field? reply "calls").getD (.list [])).elements
  Operation.ofExcept (replay b calls)

end Engine

end FunctionPipeline

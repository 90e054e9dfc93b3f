import FunctionPipeline.Failure
import FunctionPipeline.Files.AtomicWrite
import FunctionPipeline.Log.Record

/-!
What happens outside while something is done: outside programs are run and give replies, records
are logged, files are read and written. Replies are given in advance, in the order of the runs; a
run without a reply finds no program.
-/

namespace FunctionPipeline

inductive Reply where
  | finished (code : Int) (output report : String)
  | notFound
  | timedOut
  deriving DecidableEq, Repr, Inhabited

structure Run where
  command : List String
  input : String
  directory : Option Path
  timeout : Value
  deriving Repr, Inhabited

/-- The replies to come, and what has happened so far. -/
structure Activity where
  replies : List Reply := []
  runs : List Run := []
  log : List LogRecord := []
  files : FileTree := ⟨[]⟩
  medium : FileTree.Medium := {}
  deriving Repr, Inhabited

/-- Something that may fail. What happened before a failure has happened. -/
abbrev Operation (α : Type) := ExceptT Failure (StateM Activity) α

namespace Activity

def logged (a : Activity) (r : LogRecord) : Activity := { a with log := a.log ++ [r] }

def nextReply (a : Activity) : Reply := a.replies.headD .notFound

def afterRun (a : Activity) (run : Run) : Activity :=
  { a with replies := a.replies.tail, runs := a.runs ++ [run] }

end Activity

namespace Operation

def log (r : LogRecord) : Operation Unit := modify (·.logged r)

def ofFault {α : Type} (r : Except Fault α) : Operation α :=
  match r with
  | .ok a => pure a
  | .error cause => throw (.fault cause)

def ofExcept {α : Type} (r : Except Failure α) : Operation α :=
  match r with
  | .ok a => pure a
  | .error f => throw f

/-- Does something and gives its outcome, so that a failure can be answered. -/
def outcome {α : Type} (o : Operation α) : Operation (Except Failure α) :=
  ExceptT.lift (ExceptT.run o)

def start (run : Run) : Operation Reply := do
  let a ← get
  set (a.afterRun run)
  return a.nextReply

end Operation

end FunctionPipeline

import FunctionPipeline.Activity
import FunctionPipeline.CommandLine.Command
import FunctionPipeline.Console.Message
import FunctionPipeline.Log.Setup

/-!
What a command does as seen from outside: besides the runs of outside programs, the log and the
files there are messages, what it asks of logging, and its output.
-/

namespace FunctionPipeline.CommandLine

/-- What a command asks of logging: a level for what is usual, or all of it. -/
inductive LogWish where
  | usual (level : Value)
  | all (request : LogRequest)
  deriving Repr, Inhabited

def LogWish.request : LogWish → LogRequest
  | .usual level => { level }
  | .all r => r

structure Session where
  activity : Activity
  messages : List Message := []
  wishes : List LogWish := []
  output : String := ""
  deriving Repr, Inhabited

inductive Ending where
  | exit (code : Nat)
  | wrong (cause : UsageError)
  | failure (cause : Failure)
  deriving Repr, Inhabited

/-- A part of a command, which may end it. What happened before has happened. -/
abbrev Task (α : Type) := ExceptT Ending (StateM Session) α

namespace Task

def say (kind : MessageKind) (text : String) : Task Unit :=
  modify fun s => { s with messages := s.messages ++ [⟨kind, text⟩] }

def wish (w : LogWish) : Task Unit := modify fun s => { s with wishes := s.wishes ++ [w] }

def print (text : String) : Task Unit := modify fun s => { s with output := s.output ++ text }

def outcome {α : Type} (o : Operation α) : Task (Except Failure α) := do
  let s ← get
  let (r, activity) := o.run.run s.activity
  set { s with activity }
  return r

def ofExcept {α : Type} (r : Except Failure α) : Task α :=
  match r with
  | .ok a => pure a
  | .error f => throw (.failure f)

def ofFault {α : Type} (r : Except Fault α) : Task α :=
  match r with
  | .ok a => pure a
  | .error cause => throw (.failure (.fault cause))

def ofUsage {α : Type} (r : Except UsageError α) : Task α :=
  match r with
  | .ok a => pure a
  | .error cause => throw (.wrong cause)

def files : Task FileTree := do return (← get).activity.files

def giveUp {α : Type} (text : String) : Task α := do
  say .error text
  throw (.exit 1)

end Task

end FunctionPipeline.CommandLine

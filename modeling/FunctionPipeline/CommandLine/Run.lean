import FunctionPipeline.CommandLine.Build
import FunctionPipeline.CommandLine.Render

/-!
Command lines carried out.
-/

namespace FunctionPipeline.CommandLine

def Command.run (today : String) : Command → Task Unit
  | .build c => c.run today
  | .render c => c.run

def task (words : List String) (today : String) : Task Unit := do
  match Command.read (← Task.files) words with
  | .error (.asks text) => Task.print text
  | .error (.wrong cause) => throw (.wrong cause)
  | .ok command => command.run today

/-- Carries out a command line on a day, and says how it ended and what happened. -/
def run (words : List String) (today : String) (activity : Activity) : Ending × Session :=
  match (task words today).run.run { activity } with
  | (.ok (), session) => (.exit 0, session)
  | (.error ending, session) => (ending, session)

end FunctionPipeline.CommandLine

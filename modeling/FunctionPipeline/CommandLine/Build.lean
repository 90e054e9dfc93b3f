import FunctionPipeline.Build.Basic
import FunctionPipeline.CommandLine.Session
import FunctionPipeline.Config.File

/-!
The command that builds a composition.
-/

namespace FunctionPipeline.CommandLine

namespace BuildCommand

/-- The key and the text of an annotation. The first equals sign ends the key. -/
def annotationIn (text : String) : Except UsageError (Value × Value) :=
  let key := text.toList.takeWhile (· ≠ '=')
  match text.toList.dropWhile (· ≠ '=') with
  | [] => .error (.badValue "--annotation" (.notPair text))
  | _ :: value =>
      if key.isEmpty then .error (.badValue "--annotation" (.notPair text))
      else .ok (.str (String.ofList key), .str (String.ofList value))

/-- Annotations in order. The last one with a key counts. -/
def annotationsOf (texts : List String) : Except UsageError Entries := do
  return Entries.ofList (← texts.mapM annotationIn)

def configuration (c : BuildCommand) : Task Config := do
  match Config.load (← Task.files) c.config with
  | .ok config => return config
  | .error failure =>
      if failure.isA .config then
        Task.giveUp ("Invalid configuration: " ++ (← Task.ofFault failure.message))
      else throw (.failure failure)

def levelIn (c : BuildCommand) (config : Config) : Except Fault Value :=
  if c.isVerbose then .ok (.str "DEBUG") else config.logLevel

def logRequest (c : BuildCommand) (config : Config) (today : String) : Except Fault LogRequest := do
  let file ← config.logFile today
  let level ← c.levelIn config
  return { file, level, format := config.logFormat, console := config.logsToConsole }

/-- A name from the command line; the usual one stands for none. -/
def labelOf (name : Option String) : Value := (name.map Value.str).getD .null

def order (c : BuildCommand) (annotations : Entries) : Build.Order :=
  { entry := c.entry
    output := some c.output
    labels :=
      { step := labelOf c.step
        function := labelOf c.function
        annotations := .object annotations } }

/-- Tells of a failure that a build may have. The output is as it was, if there is one. -/
def report (c : BuildCommand) (failure : Failure) : Task Unit := do
  Task.say .error (failure.className ++ ": " ++ (← Task.ofFault failure.message))
  if ← Task.ofFault ((← Task.files).holds c.output) then
    Task.say .warning s!"Left existing {c.output.text} unchanged"
  throw (.exit 1)

def run (c : BuildCommand) (today : String) : Task Unit := do
  let config ← c.configuration
  Task.wish (.all (← Task.ofFault (c.logRequest config today)))
  Task.say .banner ("inlinefn build: " ++ c.entry.name)
  let annotations ← Task.ofUsage (annotationsOf c.annotations)
  match ← Task.outcome (Build.run config (c.order annotations)) with
  | .error failure =>
      if failure.isA .build then c.report failure else throw (.failure failure)
  | .ok product =>
      Task.say .success ("Wrote " ++ c.output.text)
      Task.say .info ("sha256: " ++ product.checksum)

end BuildCommand

end FunctionPipeline.CommandLine

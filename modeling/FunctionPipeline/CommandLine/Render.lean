import FunctionPipeline.CommandLine.Session
import FunctionPipeline.Invocation.Runner
import FunctionPipeline.Manifest.Basic

/-!
The command that runs a packaged function once and prints the response.
-/

namespace FunctionPipeline.CommandLine

namespace RenderCommand

def load (c : RenderCommand) (files : FileTree) : Except Failure (Manifest × Entries) := do
  let manifest ← Manifest.decode (← (files.readText c.manifest).mapError Failure.fault)
  let document ← Yaml.decode (← (files.readText c.observed).mapError Failure.fault)
  return (manifest, (document.entries?).getD [])

def isOfInput : Failure → Bool
  | .fault cause => cause.isOfFiles
  | failure => failure.kind?.isSome

def input (c : RenderCommand) : Task (Manifest × Entries) := do
  match c.load (← Task.files) with
  | .ok found => return found
  | .error failure =>
      if isOfInput failure then
        Task.giveUp ("Cannot load input: " ++ (← Task.ofFault failure.message))
      else throw (.failure failure)

/-- The step to run: the one that is asked for, or the first one. -/
def stepIn (c : RenderCommand) (manifest : Manifest) : Task Step := do
  match manifest.steps, c.step with
  | [], _ => Task.giveUp (c.manifest.text ++ " has no pipeline steps")
  | first :: _, none => return first
  | _, some name =>
      match manifest.step? name with
      | some step => return step
      | none =>
          let names := joined ", " (manifest.steps.map Step.name)
          Task.giveUp s!"Unknown step: {name} (available: {names})"

/-- A document of a state. One without a composite is the composite itself. -/
def stateDocument (document : Entries) : Value :=
  match Entries.field? document "composite" with
  | some _ => .object document
  | none => .object [(.str "composite", .object [(.str "resource", .object document)])]

def observedIn (document : Entries) : Task State := do
  match State.ofValue (stateDocument document) with
  | .ok state => return state
  | .error failure =>
      if failure.isA .general then
        Task.giveUp ("Invalid observed state: " ++ (← Task.ofFault failure.message))
      else throw (.failure failure)

/-- The request for a step: nothing is desired yet. -/
def requestFor (manifest : Manifest) (step : Step) (observed : State) : Except Fault Request := do
  let tag := (← manifest.name.shown) ++ "/" ++ step.name
  Request.ofParts ((step.input.toValue.entries?).getD []) observed {} (.str tag) (.object [])

/-- Runs a step once, prints the response, and tells of its results if it is a failure. -/
def run (c : RenderCommand) : Task Unit := do
  Task.wish (.usual (.str (if c.isVerbose then "DEBUG" else "WARNING")))
  let (manifest, document) ← c.input
  let step ← c.stepIn manifest
  let observed ← observedIn document
  let request ← Task.ofFault (requestFor manifest step observed)
  let response ← Task.ofExcept (← Task.outcome (Engine.usual.run request Response.usualTtl))
  Task.print (← Task.ofExcept (Yaml.encode response.toValue))
  if response.failed then
    for result in response.results do
      Task.say .error result.message
    throw (.exit 1)

end RenderCommand

end FunctionPipeline.CommandLine

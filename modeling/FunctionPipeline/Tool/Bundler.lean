import FunctionPipeline.Config.Tools
import FunctionPipeline.Tool.ModuleReferences
import FunctionPipeline.Tool.Run

/-!
The bundler: an entry module and everything it imports as one source with an inline source map. A
bundle may refer only to the modules that are said to be external.
-/

namespace FunctionPipeline

/-- A bundler: the tool, the options it is given, and the external modules among them. -/
structure Bundler where
  tool : Tool
  options : Entries
  external : List Value
  deriving Repr, Inhabited

namespace Bundler

def driver : String := "bundle.cjs"

def ofOptions (options : Entries) (tool : Tool) : Except Fault Bundler := do
  let external ← (Entries.orElse options "external" (.list [])).elements
  return ⟨tool, options, external⟩

def toolOf (c : Config.Bundling) : Tool := ⟨c.program, driver, c.timeout, c.directory⟩

def ofConfig (c : Config.Bundling) : Bundler := ⟨toolOf c, c.options, c.external⟩

def failing (cause : ToolError) : Failure := .bundle (.str cause.message) .null

def usualReport : String := "bundler reported failure"

/-- A message with the count of the errors after the first. A list of texts takes it in character
by character. -/
def withCount (message : Value) (others : Nat) : Except Fault Value :=
  let addition := s!" (+{others} more)"
  if others = 0 then .ok message
  else
    match message with
    | .str s => .ok (.str (s ++ addition))
    | .sequence .writable items =>
        .ok (.list (items ++ addition.toList.map fun c => .str (String.singleton c)))
    | v => .error (.notAddable v.typeName "str")

def reported (reply : Entries) (entry : Path) : Except Fault Failure := do
  let (first, count) ← Tool.firstError reply usualReport
  let message ← withCount ((← first.lookUp "text").getD (.str usualReport)) (count - 1)
  let file := (← first.lookUp "file").getD .null
  return .bundle message (if file.isTrue then file else .str entry.text)

def warningRecord (warning : Value) : Except Fault LogRecord := do
  let text ← ((← warning.lookUp "text").getD .null).shown
  return {
    level := .warning
    logger := loggerName "tools"
    message := "Bundler warning: " ++ text
    event := some (.str "bundle_warning")
    metadata := some warning }

def logWarnings : List Value → Operation Unit
  | [] => pure ()
  | warning :: rest => do
      Operation.log (← Operation.ofFault (warningRecord warning))
      logWarnings rest

/-- The modules that a bundle refers to and that are not external. -/
def unresolved (b : Bundler) (code : String) : List String :=
  (moduleReferences code).filter fun name => !b.external.any fun e => (Value.str name).equals e

def codeOf (b : Bundler) (reply : Entries) (entry : Path) : Except Failure String :=
  match Entries.field? reply "code" with
  | some (.str code) =>
      match b.unresolved code with
      | [] => .ok code
      | name :: others =>
          let message := "Bundle still references external modules: " ++ joined ", " (name :: others)
          .error (.bundle (.str message) (.str name))
  | _ => .error (.bundle (.str "Bundler returned no output") (.str entry.text))

def payload (b : Bundler) (entry : Path) : Value :=
  .object (Entries.update [(.str "entryPoint", .str entry.text)] b.options)

def bundle (b : Bundler) (entry : Path) : Operation String := do
  if entry.hasNull then throw (.fault FileTree.nullFault)
  let entry := entry.resolved
  if !(← Operation.ofFault ((← get).files.holdsFile entry)) then
    throw (.bundle (.str "Entry module not found") (.str entry.text))
  let directory := b.tool.directory.getD entry.parent
  let reply ← b.tool.run failing (b.payload entry) (some directory)
  if !Tool.isOk reply then throw (← Operation.ofFault (reported reply entry))
  logWarnings (← Operation.ofFault ((Entries.field? reply "warnings").getD (.list [])).elements)
  Operation.ofExcept (b.codeOf reply entry)

end Bundler

end FunctionPipeline

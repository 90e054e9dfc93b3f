import FunctionPipeline.Config.Tools
import FunctionPipeline.Tool.Run

/-!
The downgrader: a source brought to a dialect that the runtime can load. Its inline source map is
carried through.
-/

namespace FunctionPipeline

/-- A downgrader: the tool, plugins beside those of the dialect, and how the result looks. -/
structure Downgrader where
  tool : Tool
  plugins : List Value
  retainLines : Value
  compact : Value
  deriving Repr, Inhabited

structure Dialect where
  plugins : List Value
  presets : List Value
  deriving Repr, Inhabited

namespace Dialect

def modulesPlugin : Value :=
  .list [.str "@babel/plugin-transform-modules-commonjs", .object [(.str "loose", .bool true)]]

def oldEnginePreset : Value :=
  .list [.str "@babel/preset-env", .object
    [(.str "targets", .object [(.str "ie", .str "11")]), (.str "modules", .str "commonjs")]]

def known : List (String × Dialect) :=
  [("commonjs", ⟨[modulesPlugin], []⟩), ("es5", ⟨[modulesPlugin], [oldEnginePreset]⟩)]

def usual : String := "commonjs"

def unknown (name : Value) : Failure :=
  match name.shown with
  | .ok name =>
      let names := joined ", " (known.map (·.1))
      .downgrade (.str s!"Unknown target dialect '{name}'. Known: {names}") none none
  | .error cause => .fault cause

def ofName (name : Value) : Except Failure Dialect :=
  match name.unhashable? with
  | some type => .error (.fault (.unhashable type))
  | none =>
      match known.find? fun d => name.equals (.str d.1) with
      | some (_, d) => .ok d
      | none => .error (unknown name)

end Dialect

namespace Downgrader

def driver : String := "downgrade.cjs"

def ofConfig (c : Config.Downgrading) : Downgrader :=
  ⟨⟨c.program, driver, c.timeout, c.directory⟩, c.plugins, c.retainLines, c.compact⟩

/-- A downgrader without plugins of its own that keeps lines where they are. -/
def plain (program timeout : Value) (directory : Option Path) : Downgrader :=
  ⟨⟨program, driver, timeout, directory⟩, [], .bool true, .bool false⟩

/-- Plugins followed by those of others that do not occur before. -/
def withPlugins (plugins : List Value) : List Value → List Value
  | [] => plugins
  | p :: rest =>
      withPlugins (if plugins.any fun q => q.equals p then plugins else plugins ++ [p]) rest

def options (d : Downgrader) (dialect : Value) : Except Failure Value := do
  let known ← Dialect.ofName dialect
  return .object [
    (.str "plugins", .list (withPlugins known.plugins d.plugins)),
    (.str "presets", .list known.presets),
    (.str "ast", .bool false), (.str "babelrc", .bool false), (.str "configFile", .bool false),
    (.str "sourceMaps", .str "inline"), (.str "inputSourceMap", .bool true),
    (.str "compact", d.compact), (.str "retainLines", d.retainLines),
    (.str "highlightCode", .bool false)]

def failing (cause : ToolError) : Failure := .downgrade (.str cause.message) none none

def usualReport : String := "downgrader reported failure"

/-- The place that an error names, if it names a line. -/
def placeIn (error : Value) : Except Fault (Option Location) := do
  match (← error.lookUp "line").getD .null with
  | .null => return none
  | line =>
      return some ⟨(← error.lookUp "file").getD .null, line, (← error.lookUp "column").getD .null⟩

def reported (reply : Entries) : Except Fault Failure := do
  let (first, _) ← Tool.firstError reply usualReport
  let place ← placeIn first
  return .downgrade ((← first.lookUp "text").getD (.str usualReport)) place none

def codeOf (reply : Entries) : Except Failure String :=
  match Entries.field? reply "code" with
  | some (.str code) => .ok code
  | _ => .error (.downgrade (.str "Downgrader returned no output") none none)

def payload (source : String) (options : Value) : Value :=
  .object [(.str "code", .str source), (.str "filename", .str "bundle.js"), (.str "options", options)]

def downgrade (d : Downgrader) (source : String) (dialect : Value) : Operation String := do
  let options ← Operation.ofExcept (d.options dialect)
  let reply ← d.tool.run failing (payload source options) d.tool.directory
  if !Tool.isOk reply then throw (← Operation.ofFault (reported reply))
  Operation.ofExcept (codeOf reply)

end Downgrader

end FunctionPipeline

import FunctionPipeline.Config.Section

/-!
Settings for the outside tools: for bundling a module graph into one source, and for bringing the
bundle to an older dialect.
-/

namespace FunctionPipeline.Config

structure Bundling where
  program : Value
  platform : Value
  format : Value
  target : Value
  sourceMap : Value
  sourceRoot : Value
  external : List Value
  directory : Option Path
  timeout : Value
  deriving Repr, Inhabited

namespace Bundling

def ofSection (v : Option Value) : Except Failure Bundling := do
  let settings ← sectionOf "bundler" v
  let external ← itemsOf "bundler: external" (Entries.field? settings "external")
  let directory ← directoryIn settings "working_dir"
  return {
    program := setting settings "node_bin" usualProgram
    platform := setting settings "platform" (.str "neutral")
    format := setting settings "format" (.str "esm")
    target := setting settings "target" (.str "es6")
    sourceMap := setting settings "sourcemap" (.str "inline")
    sourceRoot := setting settings "source_root" .null
    external, directory
    timeout := setting settings "timeout_s" usualTimeout }

def platforms : List Value := ["neutral", "node", "browser"].map .str

def formats : List Value := ["esm", "cjs", "iife"].map .str

def sourceMaps : List Value := ["inline", "both", "external", "linked"].map .str ++ [.bool false]

def check (b : Bundling) : Except Failure Unit := do
  if !isOneOf b.platform platforms then refusedFor b.platform .unknownPlatform
  if !isOneOf b.format formats then refusedFor b.format .unknownFormat
  if !isOneOf b.sourceMap sourceMaps then refusedFor b.sourceMap .unknownSourceMap
  if !isTimeout b.timeout then refused (.badTimeout "bundler")
  if b.external.any fun name => name.typeName ≠ "str" then refused .badExternal

def options (b : Bundling) : Entries :=
  [(.str "platform", b.platform), (.str "format", b.format), (.str "target", b.target),
   (.str "sourcemap", b.sourceMap), (.str "sourceRoot", b.sourceRoot),
   (.str "external", .list b.external)]

def summary (b : Bundling) : Except Fault String := do
  let platform ← b.platform.shown
  let format ← b.format.shown
  let target ← b.target.shown
  return s!"BundlerConfig(platform={platform}, format={format}, target={target})"

end Bundling

structure Downgrading where
  program : Value
  dialect : Value
  plugins : List Value
  retainLines : Value
  compact : Value
  directory : Option Path
  timeout : Value
  deriving Repr, Inhabited

namespace Downgrading

def ofSection (v : Option Value) : Except Failure Downgrading := do
  let settings ← sectionOf "downgrader" v
  let plugins ← itemsOf "downgrader: plugins" (Entries.field? settings "plugins")
  let directory ← directoryIn settings "working_dir"
  return {
    program := setting settings "node_bin" usualProgram
    dialect := setting settings "target_dialect" (.str "commonjs")
    plugins
    retainLines := setting settings "retain_lines" (.bool true)
    compact := setting settings "compact" (.bool false)
    directory
    timeout := setting settings "timeout_s" usualTimeout }

def check (d : Downgrading) : Except Failure Unit := do
  if !d.dialect.isTrue || d.dialect.typeName ≠ "str" then refused .badDialect
  if d.retainLines.typeName ≠ "bool" || d.compact.typeName ≠ "bool" then refused .badFlags
  if !isTimeout d.timeout then refused (.badTimeout "downgrader")

def summary (d : Downgrading) : Except Fault String := do
  let dialect ← d.dialect.shown
  return s!"DowngraderConfig(target_dialect={dialect}, plugins={d.plugins.length})"

end Downgrading

end FunctionPipeline.Config

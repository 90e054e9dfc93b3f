import FunctionPipeline.Build.Stages
import FunctionPipeline.Files.AtomicWrite
import FunctionPipeline.Text.Sha256

/-!
Builds: an entry module becomes the text of a manifest. The labels are looked at before any tool
runs, and the output file is written when all else has succeeded, so that a build that fails leaves
it as it was.
-/

namespace FunctionPipeline.Build

/-- What is to be built, and where the text goes; without an output it is only returned. -/
structure Order where
  entry : Path
  output : Option Path := none
  labels : Labels := {}
  deriving Repr, Inhabited

structure Product where
  manifest : Manifest
  document : String
  output : Option Path
  checksum : String
  deriving Repr, Inhabited

def write (p : Path) (text : String) : Operation Unit := do
  let a ← get
  let (files, outcome) := a.files.writeText p text FileTree.usualEncoding .usual a.medium
  modify fun a => { a with files }
  Operation.ofFault outcome

def writeTo (output : Option Path) (text : String) : Operation Unit :=
  match output with
  | some p => write p text
  | none => pure ()

def stages (config : Config) (order : Order) : Operation (Manifest × String) := do
  Operation.ofExcept ((order.labels.check config.manifest).mapError Failure.embed)
  let bundled ← bundle config order.entry
  let source ← downgrade config bundled .null
  let manifest ← embed config (.str source) order.labels
  let document ← serialize manifest
  writeTo order.output document
  return (manifest, document)

def Order.toEntries (order : Order) : Entries :=
  [(.str "entry", .str order.entry.text),
   (.str "output", (order.output.map fun p => Value.str p.text).getD .null)]

def failureRecord (order : Order) (failure : Failure) : Except Fault LogRecord := do
  return record .error ("Build failed: " ++ (← failure.message)) "build_failed"
    [(.str "entry", .str order.entry.text), (.str "error_type", .str failure.className)]

/-- Logs a failure that a build may have; others pass without a word. -/
def logFailure (order : Order) (failure : Failure) : Operation Unit :=
  if failure.isA .build then do
    Operation.log (← Operation.ofFault (failureRecord order failure))
  else pure ()

def run (config : Config) (order : Order) : Operation Product := do
  Operation.log (record .info ("Building " ++ order.entry.text) "build_started" order.toEntries)
  match ← Operation.outcome (stages config order) with
  | .error failure =>
      logFailure order failure
      throw failure
  | .ok (manifest, document) =>
      let checksum := Sha256.ofText document
      Operation.log (record .info "Build completed" "build_completed"
        (order.toEntries ++ [(.str "sha256", .str checksum)]))
      return ⟨manifest, document, order.output, checksum⟩

end FunctionPipeline.Build

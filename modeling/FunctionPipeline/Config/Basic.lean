import FunctionPipeline.Config.Composition
import FunctionPipeline.Config.Tools
import FunctionPipeline.Text.Upper

/-!
The configuration of a build. Each section has defaults, so that no configuration at all is one.
-/

namespace FunctionPipeline

/-- A configuration, with the path of the file it was read from. -/
structure Config where
  path : Option Path
  bundler : Config.Bundling
  downgrader : Config.Downgrading
  manifest : Config.Composition
  logging : Entries
  deriving Repr, Inhabited

namespace Config

/-- The configuration that a document describes; what counts as no is the usual one. -/
def ofValue (document : Value) (path : Option Path) : Except Failure Config := do
  let some entries := (if document.isTrue then document else .object []).entries? |
    throw (.fault (.noAttribute document.typeName "get"))
  let bundler ← Bundling.ofSection (Entries.field? entries "bundler")
  let downgrader ← Downgrading.ofSection (Entries.field? entries "downgrader")
  let manifest ← Composition.ofSection (Entries.field? entries "manifest")
  return ⟨path, bundler, downgrader, manifest,
    ← sectionOf "logging" (Entries.field? entries "logging")⟩

/-- The level of the log, in upper case. -/
def logLevel (c : Config) : Except Fault Value :=
  match setting c.logging "level" (.str "INFO") with
  | .str s => .ok (.str (upperCase s))
  | .bytes octets => .ok (.bytes (octets.map fun b => if 97 ≤ b ∧ b ≤ 122 then b - 32 else b))
  | v => .error (.noAttribute v.typeName "upper")

def logFormat (c : Config) : Value := setting c.logging "format" (.str "pretty")

def logsToConsole (c : Config) : Value := setting c.logging "console" (.bool true)

/-- A text with another one in place of each occurrence of a word that is not empty. -/
def replaced (word other : List Char) : Nat → List Char → List Char
  | _, [] => []
  | skip + 1, _ :: rest => replaced word other skip rest
  | 0, c :: rest =>
      if word.isPrefixOf (c :: rest) then other ++ replaced word other (word.length - 1) rest
      else c :: replaced word other 0 rest

/-- What stands for the day in the path of a log file. -/
def dayMark : String := "\x7bdate\x7d"

def logFile (c : Config) (today : String) : Except Fault (Option Path) :=
  match Entries.orElse c.logging "output" .null with
  | .null => .ok none
  | .str s =>
      .ok (some (Path.ofText (String.ofList (replaced dayMark.toList today.toList 0 s.toList))))
  | .bytes _ => .error (.notPath "bytes")
  | .date _ => .error (.notPath "date")
  | .moment _ => .error (.notPath "datetime")
  | v => .error (.noAttribute v.typeName "replace")

def inSection (name : String) (r : Except Failure Unit) : Except Failure Unit :=
  match r with
  | .error (.config cause) => refused (.inSection name cause)
  | r => r

def check (c : Config) : Except Failure Unit := do
  inSection "bundler" c.bundler.check
  inSection "downgrader" c.downgrader.check
  inSection "manifest" c.manifest.check
  if !isOneOf c.logFormat (logFormats.map .str) then refused .unknownLogFormat

def summary (c : Config) : Except Fault String := do
  let path := (c.path.map Path.text).getD "None"
  let manifest ← c.manifest.name.shown
  return s!"BuildConfig(path={path}, manifest={manifest})"

end Config

end FunctionPipeline

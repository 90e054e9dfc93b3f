import FunctionPipeline.CommandLine.Grammar
import FunctionPipeline.Document.Value
import FunctionPipeline.Files.Tree
import FunctionPipeline.Text.Word

/-!
The commands: building a composition, and running a packaged function once. A command line is read
as one of them, or it asks for a text, or it is wrong. A command says of itself how it is called,
what it does, and its options.
-/

namespace FunctionPipeline.CommandLine

/-- A description: how the command is called, what it does in lines, and its parts with what they
are for under headings. -/
structure Description where
  call : String
  lines : List String
  parts : List (String × List (String × String))
  deriving Repr, Inhabited

namespace Description

def optionRow (o : OptionForm) : String × String :=
  (joined ", " o.spellings ++ ((o.valueName.map (" " ++ ·)).getD ""), o.purpose)

def padded (width : Nat) (s : String) : String :=
  s ++ String.ofList (List.replicate (width - s.length) ' ')

def columns (rows : List (String × String)) : List String :=
  let width := (rows.map (·.1.length)).foldl max 0
  rows.map fun row => "  " ++ padded (width + 2) row.1 ++ row.2

def partLines (part : String × List (String × String)) : List String :=
  "" :: (part.1 ++ ":") :: columns part.2

def text (d : Description) : String :=
  let lines := ("Usage: " ++ d.call) :: "" ::
    (d.lines.map fun l => if l.isEmpty then "" else "  " ++ l) ++ d.parts.flatMap partLines
  String.join (lines.map (· ++ "\n"))

end Description

def program : String := "inlinefn"

def version : String := "0.1.0"

structure BuildCommand where
  entry : Path
  output : Path
  config : Option Path
  step : Option String
  function : Option String
  annotations : List String
  isVerbose : Bool
  deriving Repr, Inhabited

structure RenderCommand where
  manifest : Path
  observed : Path
  step : Option String
  isVerbose : Bool
  deriving Repr, Inhabited

inductive Command where
  | build (c : BuildCommand)
  | render (c : RenderCommand)
  deriving Repr, Inhabited

inductive NoCommand where
  /-- It asks for a text. -/
  | asks (text : String)
  | wrong (cause : UsageError)
  deriving Repr, Inhabited

def helpOption : OptionForm := { name := "--help", purpose := "Show this message and exit." }

def versionOption : OptionForm := { name := "--version", purpose := "Show the version and exit." }

def verboseOption : OptionForm :=
  { name := "--verbose", letter := some 'v', purpose := "Enable debug logging" }

def mainGrammar : Grammar := ⟨[versionOption, helpOption], false⟩

/-- Where a composition goes if no output is given. -/
def usualOutput : String := "composition.yaml"

def outputOption : OptionForm :=
  { name := "--output"
    letter := some 'o'
    valueName := some "FILE"
    purpose := "Manifest file to write  [default: " ++ usualOutput ++ "]" }

def buildGrammar : Grammar :=
  { options := [
      outputOption,
      { name := "--config", valueName := some "PATH", purpose := "Path to inlinefn.yaml" },
      { name := "--step", valueName := some "TEXT", purpose := "Pipeline step name" },
      { name := "--function", valueName := some "TEXT", purpose := "Function reference name" },
      { name := "--annotation"
        valueName := some "TEXT"
        purpose := "Artifact annotation KEY=VALUE (repeatable)" },
      verboseOption, helpOption]
    isMixed := true }

def renderGrammar : Grammar :=
  { options := [
      { name := "--step"
        valueName := some "TEXT"
        purpose := "Step to run (defaults to the first step)" },
      verboseOption, helpOption]
    isMixed := true }

def buildSummary : String := "Bundle, downgrade and embed ENTRY into a composition manifest."

def renderSummary : String := "Run a packaged function once and print its response."

def mainHelp : String :=
  Description.text {
    call := program ++ " [OPTIONS] COMMAND [ARGS]..."
    lines := [program ++ " - Inline composition functions.", "",
      "Package a function module into a composition manifest, or run a packaged",
      "function against an observed composite."]
    parts := [("Options", mainGrammar.options.map Description.optionRow),
      ("Commands", [("build", buildSummary), ("render", renderSummary)])] }

def buildHelp : String :=
  Description.text {
    call := program ++ " build [OPTIONS] ENTRY"
    lines := [buildSummary]
    parts := [("Options", buildGrammar.options.map Description.optionRow)] }

def renderHelp : String :=
  Description.text {
    call := program ++ " render [OPTIONS] MANIFEST OBSERVED"
    lines := [renderSummary, "",
      "OBSERVED is either a composite resource document or a state document with",
      "\x60composite\x60 and \x60resources\x60 keys."]
    parts := [("Options", renderGrammar.options.map Description.optionRow)] }

def versionText : String := program ++ ", version " ++ version ++ "\n"

def orWrong {α : Type} : Except UsageError α → Except NoCommand α := Except.mapError .wrong

/-- The words after the options before a command. Without any word the description is asked for. -/
def readMain (words : List String) : Except NoCommand (List String) := do
  if words.isEmpty then throw (.asks mainHelp)
  let r ← orWrong (mainGrammar.read words)
  match r.options with
  | (name, _) :: _ => throw (.asks (if name = versionOption.name then versionText else mainHelp))
  | [] => return r.arguments

/-- Refuses a text that leads to a directory as a file to write. -/
def checkOutput (files : FileTree) (text : String) : Except UsageError Unit :=
  match files.atText? text with
  | some .directory =>
      .error (.badValue (joined " / " (outputOption.spellings.map fun s => "'" ++ s ++ "'"))
        (.fileIsDirectory text))
  | _ => .ok ()

def existing (files : FileTree) (name : String) : Option String → Except UsageError Path
  | none => .error (.missingArgument name)
  | some text =>
      match files.atText? text with
      | none => .error (.badValue ("'" ++ name ++ "'") (.fileMissing text))
      | some .directory => .error (.badValue ("'" ++ name ++ "'") (.fileIsDirectory text))
      | some (.file _) => .ok (Path.ofText text)

def checkExtra (arguments : List String) : Except UsageError Unit :=
  if arguments.isEmpty then .ok () else .error (.extraArguments arguments)

/-- A build. An output that is given is looked at before the arguments, and the usual one after
them. -/
def buildOf (files : FileTree) (r : Reading) : Except UsageError BuildCommand := do
  let output := (r.value? outputOption.name).getD usualOutput
  if r.has outputOption.name then checkOutput files output
  let entry ← existing files "ENTRY" r.arguments[0]?
  checkOutput files output
  checkExtra (r.arguments.drop 1)
  return {
    entry
    output := Path.ofText output
    config := (r.value? "--config").map Path.ofText
    step := r.value? "--step"
    function := r.value? "--function"
    annotations := r.values "--annotation"
    isVerbose := r.has verboseOption.name }

def renderOf (files : FileTree) (r : Reading) : Except UsageError RenderCommand := do
  let manifest ← existing files "MANIFEST" r.arguments[0]?
  let observed ← existing files "OBSERVED" r.arguments[1]?
  checkExtra (r.arguments.drop 2)
  return ⟨manifest, observed, r.value? "--step", r.has verboseOption.name⟩

/-- Reads the words after the name of a command, which may ask for its description. -/
def readWith {α : Type} (g : Grammar) (help : String) (words : List String)
    (made : Reading → Except UsageError α) : Except NoCommand α := do
  let r ← orWrong (g.read words)
  if r.has helpOption.name then throw (.asks help)
  orWrong (made r)

/-- Whether a name starts with a sign, neither a letter nor a digit. Words after such a name are
read like those before a command. -/
def startsWithSign (name : String) : Bool :=
  match name.toList with
  | c :: _ => !isWord c || c = '_'
  | [] => false

def Command.read (files : FileTree) (words : List String) : Except NoCommand Command := do
  match ← readMain words with
  | [] => throw (.wrong .missingCommand)
  | "build" :: rest =>
      return .build (← readWith buildGrammar buildHelp rest (buildOf files))
  | "render" :: rest =>
      return .render (← readWith renderGrammar renderHelp rest (renderOf files))
  | name :: rest =>
      if startsWithSign name then let _ ← readMain rest
      throw (.wrong (.noSuchCommand name))

end FunctionPipeline.CommandLine

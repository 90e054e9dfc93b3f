import FunctionPipeline.CommandLine.Run
import FunctionPipeline.Json.Reader

/-!
The program. A command works on the files that its command line names and on the usual
configuration; afterwards the files that it made or changed are written. Outside programs are not
run from here: their replies are read from a file that an environment variable names, one JSON
object a line, and without it no program is found.
-/

namespace FunctionPipeline.CommandLine

/-- The environment variable that names the file of replies. -/
def repliesVariable : String := "INLINEFN_REPLIES"

/-- The environment variable that holds the day in the names of log files. -/
def dayVariable : String := "INLINEFN_DAY"

/-- What may be the name of a file in a word: the word, what follows an equals sign, and what
follows an option of one letter. -/
def namesInWord (word : String) : List String :=
  [word, String.ofList (word.toList.drop 2)] ++ (Grammar.split word.toList).2.toList

def withFile (t : FileTree) (p : Path) (octets : List UInt8) : FileTree :=
  let names := p.resolved.names
  let above := (List.range names.length).map fun n => names.take n
  (above.foldl (fun t place => t.put place .directory) t).put names (.file octets)

def load (t : FileTree) (name : String) : IO FileTree := do
  try
    let octets ← IO.FS.readBinFile name
    return withFile t (Path.ofText name) octets.toList
  catch _ => return t

def nameOf (place : List String) : String :=
  match place with
  | "work" :: rest => joined "/" ("." :: rest)
  | place => "/" ++ joined "/" place

/-- Writes what a tree holds beyond another one. -/
def store (before after : FileTree) : IO Unit := do
  for (place, node) in after.nodes.reverse do
    if before.node? place ≠ some node then
      match node with
      | .directory => IO.FS.createDirAll (nameOf place)
      | .file octets => IO.FS.writeBinFile (nameOf place) ⟨octets.toArray⟩

def replyIn (line : String) : Reply :=
  match Json.read line.toList with
  | .ok (.mapping _ entries) =>
      match Entries.field? entries "stdout", Entries.field? entries "returncode" with
      | some (.str output), some (.int code) => .finished code output ""
      | some (.str output), _ => .finished 0 output ""
      | _, _ => .notFound
  | _ => .notFound

def replies : IO (List Reply) := do
  match ← IO.getEnv repliesVariable with
  | none => return []
  | some name =>
      let text ← IO.FS.readFile name
      return ((cutText '\n' text).filter fun line => !line.isEmpty).map replyIn

/-- Shows a message. A text that is no marked-up one is shown as it is. -/
def display (m : Message) : IO Unit := do
  match m.shown with
  | .ok text => IO.print text
  | .error _ => IO.println m.text

def finish : Ending → IO UInt32
  | .exit code => return code.toUInt32
  | .wrong cause => do
      IO.eprintln ("Error: " ++ cause.message)
      return 2
  | .failure failure => do
      match failure.message with
      | .ok text => IO.eprintln (failure.className ++ ": " ++ text)
      | .error _ => IO.eprintln failure.className
      return 1

end FunctionPipeline.CommandLine

open FunctionPipeline FunctionPipeline.CommandLine in
def main (words : List String) : IO UInt32 := do
  let empty : FileTree := ⟨[(Path.workDirectory.names, .directory)]⟩
  let files ← (Config.usualFile :: words.flatMap namesInWord).foldlM load empty
  let day := (← IO.getEnv dayVariable).getD ""
  let (ending, session) := run words day { replies := ← replies, files }
  IO.print session.output
  for message in session.messages do
    display message
  store files session.activity.files
  finish ending

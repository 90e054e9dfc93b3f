import FunctionPipeline.Document.Text

/-!
Why a run of an outside tool gives no reply.
-/

namespace FunctionPipeline

inductive ToolError where
  | notFound (program : String)
  | timedOut (driver limit : String)
  | exited (driver : String) (code : Int) (report : Option String)
  | notJson (driver output : String)
  | notObject (driver type : String)
  deriving DecidableEq, Repr

def ToolError.message : ToolError → String
  | .notFound program => s!"Node executable not found: {program}"
  | .timedOut driver limit => s!"{driver} timed out after {limit}s"
  | .exited driver code report =>
      s!"{driver} failed with exit code {code}" ++
        (match report with
          | some text => ": " ++ text
          | none => "")
  | .notJson driver output => s!"{driver} returned invalid JSON: {output}"
  | .notObject driver type => s!"{driver} returned {type}, expected object"

end FunctionPipeline

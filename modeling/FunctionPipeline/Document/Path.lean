import FunctionPipeline.Document.Value
import FunctionPipeline.Text.Pieces

/-!
Look-up along dotted paths.
-/

namespace FunctionPipeline.Value

def along? : Value → List Value → Option Value
  | v, [] => some v
  | v, key :: rest =>
      match v.entries? with
      | some entries =>
          match Entries.get? entries key with
          | some below => along? below rest
          | none => none
      | none => none

def pathKeys (path : String) : List Value := (cutText '.' path).map .str

def atPath? (v : Value) (path : String) : Option Value := v.along? (pathKeys path)

end FunctionPipeline.Value

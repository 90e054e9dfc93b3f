import FunctionPipeline.Fault
import FunctionPipeline.Text.Pieces

/-!
Long output shortened for messages.
-/

namespace FunctionPipeline

/-- The first characters of a text up to a count; a negative count leaves so many out at the end. -/
def leading (count : Int) (s : List Char) : List Char :=
  s.take (if count < 0 then s.length + count else count).toNat

/-- A text without blanks at its ends, cut with three dots if it is longer than the limit. -/
def shortened (s : String) (limit : Int) : String :=
  let cs := strip s.toList
  if (cs.length : Int) > limit then String.ofList (leading limit cs ++ ['.', '.', '.'])
  else String.ofList cs

def Value.shortened (v : Value) (limit : Int) : Except Fault String :=
  if !v.isTrue then .ok ""
  else
    match v with
    | .str s => .ok (FunctionPipeline.shortened s limit)
    | v => .error (.noAttribute v.typeName "strip")

end FunctionPipeline

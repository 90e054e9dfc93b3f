import FunctionPipeline.Tool.Error

/-!
Why a call of a function's body is refused, and why a body cannot be run.
-/

namespace FunctionPipeline

inductive ResourceError where
  | blankName
  | notObject (name : String)
  | apiVersionUnset (name : String)
  | kindUnset (name : String)
  | detailsNotObject (type : String)
  | detailNotText (key : String)
  | statusNotObject (type : String)
  deriving DecidableEq, Repr

def ResourceError.message : ResourceError → String
  | .blankName => "Composed resource name must be a non-empty string"
  | .notObject name => s!"invalid resource \"{name}\": expected an object"
  | .apiVersionUnset name => s!"invalid resource \"{name}\": apiVersion must be set"
  | .kindUnset name => s!"invalid resource \"{name}\": kind must be set"
  | .detailsNotObject type => s!"Connection details must be an object, got {type}"
  | .detailNotText key => s!"Connection detail '{key}' must map a string to a string"
  | .statusNotObject type => s!"Composite status must be an object, got {type}"

inductive ExecutionError where
  | tool (cause : ToolError)
  | notTranspiled (report : String)
  /-- What the function itself reported. -/
  | reported (text : String)
  | unknownOperation (operation : String)
  | wrongArity (operation : String) (expected given : Nat)
  deriving DecidableEq, Repr

def ExecutionError.message : ExecutionError → String
  | .tool cause => cause.message
  | .notTranspiled report => "cannot transpile function source: " ++ report
  | .reported text => text
  | .unknownOperation operation => s!"Unknown response operation: {operation}"
  | .wrongArity operation expected given =>
      s!"{operation} expects {expected} argument(s), got {given}"

end FunctionPipeline

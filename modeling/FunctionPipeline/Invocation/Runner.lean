import FunctionPipeline.Activity
import FunctionPipeline.Invocation.Builder
import FunctionPipeline.Invocation.Engine

/-!
One invocation, all or nothing. A function's body works on a builder that starts from the request's
desired state. If it ends well, the builder makes the response. Whatever it fails with, the response
is a single fatal result and the request's desired state: what was built before is dropped. An input
that holds no function is answered with a fatal result, like a function that fails.
-/

namespace FunctionPipeline

/-- What a function does to a builder. -/
abbrev Body := Builder → Operation Builder

namespace Invocation

def logger : String := loggerName "runtime"

def failureRecord (request : Request) (failure : Failure) (text : String) : LogRecord :=
  { level := .error
    logger
    message := "Function failed: " ++ text
    event := some (.str "function_failed")
    metadata := some (.object
      [(.str "tag", request.tag), (.str "error_type", .str failure.className)]) }

def conclude (request : Request) (ttl : Int) : Except Failure Builder → Operation Response
  | .ok b => pure (b.response request.tag ttl [])
  | .error failure => do
      let text ← Operation.ofFault failure.message
      Operation.log (failureRecord request failure text)
      return Response.fatal request ("function error: " ++ text) ttl

def invoke (body : Body) (request : Request) (ttl : Int) : Operation Response := do
  conclude request ttl (← Operation.outcome (body (Builder.ofState request.desired)))

end Invocation

end FunctionPipeline

namespace FunctionPipeline.Engine

def record (level : LogLevel) (message event : String) (metadata : Entries) : LogRecord :=
  { level
    logger := Invocation.logger
    message
    event := some (.str event)
    metadata := some (.object metadata) }

def startRecord (request : Request) : LogRecord :=
  record .info "Running function" "function_started" [(.str "tag", request.tag)]

def endRecord (request : Request) (response : Response) : LogRecord :=
  record .info (if response.failed then "Function failed" else "Function finished")
    "function_finished"
    [(.str "tag", request.tag), (.str "failed", .bool response.failed),
      (.str "composed_resources", .int response.desired.resources.length)]

/-- The answer to an input that holds no function. -/
def rejected (request : Request) (message : String) (ttl : Int) : Operation Response := do
  Operation.log (record .error message "function_input_invalid" [(.str "tag", request.tag)])
  return Response.fatal request message ttl

/-- The function in a request's input, as functions see it: read-only. -/
def functionIn (request : Request) : Except Failure FunctionInput :=
  FunctionInput.ofValue (Value.mapping .readOnly (Entries.freeze request.input))

def run (e : Engine) (request : Request) (ttl : Int) : Operation Response := do
  Operation.log (startRecord request)
  match functionIn request with
  | .error (.invalidInput cause) =>
      rejected request ("cannot get function input: " ++ cause.message) ttl
  | .error failure => throw failure
  | .ok input =>
      let source := stripText input.artifact.source
      if source.isEmpty then rejected request "invalid function input: empty source" ttl
      else do
        let response ← Invocation.invoke
          (e.execute source request input.artifact.transpile) request ttl
        Operation.log (endRecord request response)
        return response

end FunctionPipeline.Engine

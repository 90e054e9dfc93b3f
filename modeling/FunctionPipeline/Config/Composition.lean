import FunctionPipeline.Config.Section
import FunctionPipeline.Manifest.Basic

/-!
Settings for the composition document that a build writes.
-/

namespace FunctionPipeline.Config

structure Composition where
  name : Value
  apiVersion : Value
  kind : Value
  compositeApiVersion : Value
  compositeKind : Value
  step : Value
  function : Value
  annotations : Entries
  deriving Repr, Inhabited

namespace Composition

def ofSection (v : Option Value) : Except Failure Composition := do
  let settings ← sectionOf "manifest" v
  let type ← sectionOf "manifest: composite_type_ref" (Entries.field? settings "composite_type_ref")
  let annotations ← sectionOf "manifest: annotations" (Entries.field? settings "annotations")
  return {
    name := setting settings "name" (.str "function-inline")
    apiVersion := setting settings "api_version" (.str Manifest.usualApiVersion)
    kind := setting settings "kind" (.str Manifest.usualKind)
    compositeApiVersion := setting type "apiVersion" (.str "example.crossplane.io/v1")
    compositeKind := setting type "kind" (.str "XR")
    step := setting settings "step" (.str "run-the-template")
    function := setting settings "function_name" (.str "function-inline")
    annotations }

def requirements (c : Composition) : List (String × Value) :=
  [("name", c.name), ("api_version", c.apiVersion), ("kind", c.kind),
   ("composite_api_version", c.compositeApiVersion), ("composite_kind", c.compositeKind)]

def check (c : Composition) : Except Failure Unit := do
  if let some (key, _) := c.requirements.find? fun r => !r.2.isTrue then refused (.required key)
  if let some (key, _) := c.annotations.find? fun a => a.2.typeName ≠ "str" then
    refusedFor key .annotationNotText

def summary (c : Composition) : Except Fault String := do
  let name ← c.name.shown
  let step ← c.step.shown
  let function ← c.function.shown
  return s!"ManifestConfig(name={name}, step={step}, function={function})"

end Composition

end FunctionPipeline.Config

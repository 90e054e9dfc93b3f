import FunctionPipeline.Config.Basic
import FunctionPipeline.Files.Tree
import FunctionPipeline.Yaml.Document

/-!
Configurations in files. Without a path the file with the usual name in the work directory counts,
if there is one.
-/

namespace FunctionPipeline.Config

def usualFile : String := "inlinefn.yaml"

def document (files : FileTree) (path : Path) : Except Failure Value := do
  match files.holds path with
  | .error cause => throw (.fault cause)
  | .ok false => refused (.fileMissing path.text)
  | .ok true =>
      match files.readText path with
      | .error cause => throw (.fault cause)
      | .ok text =>
          match Yaml.load text.toList with
          | .error .malformed => refused .malformed
          | .error (.fault cause) => throw (.fault cause)
          | .ok v =>
              if !v.isTrue then refused .empty
              else if v.typeName ≠ "dict" then refused (.rootNotMapping path.text)
              else return v

def ofFile (files : FileTree) (path : Path) : Except Failure Config := do
  let c ← ofValue (← document files path) (some path)
  c.check
  return c

/-- The configuration for a path that may be left out. -/
def load (files : FileTree) (path : Option Path) : Except Failure Config := do
  match path with
  | some path => ofFile files path
  | none =>
      let path := Path.workDirectory.join (Path.ofText usualFile)
      match files.holds path with
      | .error cause => throw (.fault cause)
      | .ok true => ofFile files path
      | .ok false =>
          let c ← ofValue .null none
          c.check
          return c

end FunctionPipeline.Config

import FunctionPipeline.Document.Text

/-!
Why a configuration is refused.
-/

namespace FunctionPipeline

def logFormats : List String := ["structured", "pretty"]

inductive ConfigError where
  | notMapping (what type : String)
  | notList (what type : String)
  | unknownPlatform (value : String)
  | unknownFormat (value : String)
  | unknownSourceMap (value : String)
  | badTimeout (what : String)
  | badExternal
  | badDialect
  | badFlags
  | required (key : String)
  | annotationNotText (key : String)
  | unknownLogFormat
  /-- A section's own refusal. -/
  | inSection (name : String) (cause : ConfigError)
  | fileMissing (path : String)
  | malformed
  | empty
  | rootNotMapping (path : String)
  deriving Repr

def ConfigError.message : ConfigError → String
  | .notMapping what type => s!"{what} must be a mapping, got {type}"
  | .notList what type => s!"{what} must be a list, got {type}"
  | .unknownPlatform value => s!"bundler: unknown platform '{value}'"
  | .unknownFormat value => s!"bundler: unknown format '{value}'"
  | .unknownSourceMap value => s!"bundler: unknown sourcemap mode '{value}'"
  | .badTimeout what => s!"{what}: timeout_s must be a positive number"
  | .badExternal => "bundler: external must be a list of module names"
  | .badDialect => "downgrader: target_dialect must be a non-empty string"
  | .badFlags => "downgrader: retain_lines and compact must be booleans"
  | .required key => s!"manifest: '{key}' is required"
  | .annotationNotText key => s!"manifest: annotation '{key}' must be a string"
  | .unknownLogFormat => "logging: format must be one of " ++ joined ", " logFormats
  | .inSection name cause => s!"Section '{name}' validation failed: " ++ cause.message
  | .fileMissing path => s!"Configuration file not found: {path}"
  | .malformed => "Invalid YAML syntax"
  | .empty => "Configuration file is empty"
  | .rootNotMapping path => s!"Configuration root must be a mapping: {path}"

end FunctionPipeline

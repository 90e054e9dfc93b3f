import FunctionPipeline.Json.Reader
import FunctionPipeline.SourceMap.Lookup
import FunctionPipeline.Text.Pieces
import FunctionPipeline.Text.Utf8

/-!
Source maps inside the text they describe: a comment with a data address in base 64. The last such
comment of a text counts. The comment has to end its line, but for white space.
-/

namespace FunctionPipeline.SourceMap

def isPayload (c : Char) : Bool := (Base64.digit? c).isSome || c = '='

/-- Whether a line may end here: white space with a line feed in it, or up to the end. -/
def endsHere (s : List Char) : Bool :=
  let blanks := s.takeWhile isBlank
  blanks.contains '\n' || (s.drop blanks.length).isEmpty

def skipCharset (s : List Char) : List Char :=
  match afterWord? ";charset=" s with
  | some rest =>
      let value := rest.takeWhile fun c => c ≠ ';' && c ≠ ','
      if value.isEmpty then s else rest.drop value.length
  | none => s

def payloadAt? (s : List Char) : Option (List Char) := do
  let rest ← (afterWord? "//#" s).or (afterWord? "//@" s)
  let rest ← afterWord? "sourceMappingURL=data:application/json" (rest.dropWhile isBlank)
  let rest ← afterWord? ";base64," (skipCharset rest)
  let payload := rest.takeWhile isPayload
  if payload.isEmpty || !endsHere (rest.drop payload.length) then none else some payload

/-- The payload of the last comment in a text, or the one found before. -/
def lastPayload (before : Option (List Char)) : List Char → Option (List Char)
  | [] => before
  | c :: rest => lastPayload ((payloadAt? (c :: rest)).or before) rest

/-- The data in the last comment of a text; nothing if there is none or it holds no data. -/
def inlineData (code : String) : Except Fault (Option Value) :=
  match (lastPayload none code.toList).bind fun p => (Base64.decode? p).bind Utf8.decode? with
  | none => .ok none
  | some text =>
      match Json.read text with
      | .ok v => .ok (some v)
      | .error .malformed => .ok none
      | .error (.tooManyDigits count) => .error (.tooManyDigits count)

/-- The source map in a text. Mappings that cannot be read are no source map. -/
def ofCode (code : String) : Except Fault (Option SourceMap) := do
  match ← inlineData code with
  | none => return none
  | some .null => return none
  | some data =>
      match ofData data with
      | .ok m => return some m
      | .error (.mappings _) => return none
      | .error (.shape cause) => throw cause

end FunctionPipeline.SourceMap

import FunctionPipeline.Text.Pieces
import FunctionPipeline.Text.Word

/-!
References to modules in a bundle: imports and re-exports at the start of a line, and calls of
`import` and `require` with a literal, in the order in which they stand in the text.
-/

namespace FunctionPipeline.ModuleReference

def isQuote (c : Char) : Bool := c = '"' || c = '\''

def quoted? : List Char → Option (List Char × List Char)
  | [] => none
  | mark :: rest =>
      if !isQuote mark then none
      else
        let name := rest.takeWhile fun c => !isQuote c
        match rest.drop name.length with
        | [] => none
        | _ :: after => if name.isEmpty then none else some (name, after)

def quotedAfterBlanks? (s : List Char) : Option (List Char × List Char) :=
  quoted? (s.dropWhile isBlank)

/-- The name after the first `from` that has one. The clause before it has no quotation mark and no
semicolon; the character before the text is given. -/
def fromClause? (before : Char) : List Char → Option (List Char × List Char)
  | [] => none
  | c :: rest =>
      let here :=
        if isWord before then none
        else (afterWord? "from" (c :: rest)).bind quotedAfterBlanks?
      match here with
      | some found => some found
      | none => if c = ';' || isQuote c then none else fromClause? c rest

def withClause? (s : List Char) : Option (List Char × List Char) :=
  match (afterWord? "import" s).or (afterWord? "export" s) with
  | some (blank :: rest) => if isBlank blank then fromClause? blank rest else none
  | _ => none

def bare? (s : List Char) : Option (List Char × List Char) :=
  (afterWord? "import" s).bind quotedAfterBlanks?

def atLineStart? (s : List Char) : Option (List Char × List Char) :=
  let s := s.dropWhile isBlank
  (withClause? s).or (bare? s)

def argument? (s : List Char) : Option (List Char × List Char) := do
  let (name, after) ← quotedAfterBlanks? s
  match after.dropWhile isBlank with
  | ')' :: rest => some (name, rest)
  | _ => none

/-- A call of `import`, which is no part of a longer word. -/
def importCall? (before : Option Char) (s : List Char) : Option (List Char × List Char) :=
  if before.any isWord then none else (afterWord? "import(" s).bind argument?

/-- What a call of `require` may not follow. -/
def isCallee (c : Char) : Bool := isWord c || c = '$' || c = '.'

/-- A call of `require`, with or without two underscores in front. -/
def requireCall? (before : Option Char) (s : List Char) : Option (List Char × List Char) :=
  if before.any isCallee then none
  else ((afterWord? "__require(" s).or (afterWord? "require(" s)).bind argument?

/-- The reference that starts a text, and what follows; the character before the text is given. -/
def here? (before : Option Char) (s : List Char) : Option (List Char × List Char) :=
  let startsLine := before.all fun c => c = '\n'
  ((if startsLine then atLineStart? s else none).or (importCall? before s)).or
    (requireCall? before s)

/-- The names in a text, of which the first characters belong to a reference already found. -/
def scan (before : Option Char) : Nat → List Char → List (List Char)
  | _, [] => []
  | skipped + 1, c :: rest => scan (some c) skipped rest
  | 0, c :: rest =>
      match here? before (c :: rest) with
      | some (name, after) => name :: scan (some c) (rest.length - after.length) rest
      | none => scan (some c) 0 rest

end FunctionPipeline.ModuleReference

namespace FunctionPipeline

/-- The names of the modules that a text refers to, each once, in order of appearance. -/
def moduleReferences (code : String) : List String :=
  ((ModuleReference.scan none 0 code.toList).map String.ofList).eraseDups

end FunctionPipeline

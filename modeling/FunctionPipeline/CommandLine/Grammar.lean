import FunctionPipeline.Text.Pieces
import FunctionPipeline.Text.Quoted
import FunctionPipeline.Text.Similarity

/-!
Options and arguments. A word that starts with a dash is an option, or several options of one
letter; the value of an option stands in the same word or is the next one. After two dashes there
are only arguments. A command line that is wrong is refused with a text for the user.
-/

namespace FunctionPipeline.CommandLine

inductive ValueError where
  | fileMissing (path : String)
  | fileIsDirectory (path : String)
  /-- An annotation without a key or without an equals sign. -/
  | notPair (text : String)
  deriving DecidableEq, Repr

def ValueError.message : ValueError → String
  | .fileMissing path => s!"File {Quoted.text path} does not exist."
  | .fileIsDirectory path => s!"File {Quoted.text path} is a directory."
  | .notPair text => s!"expected KEY=VALUE, got '{text}'"

inductive UsageError where
  | missingCommand
  | noSuchCommand (name : String)
  | extraArguments (arguments : List String)
  | missingArgument (name : String)
  /-- The value of a parameter, which is named as in the message, is refused. -/
  | badValue (parameter : String) (cause : ValueError)
  /-- There is no such option, but there may be similar ones. -/
  | noSuchOption (name : String) (similar : List String)
  | needsArgument (option : String)
  | takesNoValue (option : String)
  deriving DecidableEq, Repr

def suggestion : List String → String
  | [] => ""
  | [name] => s!" Did you mean {name}?"
  | names => " (Possible options: " ++ joined ", " names ++ ")"

def UsageError.message : UsageError → String
  | .missingCommand => "Missing command."
  | .noSuchCommand name => s!"No such command {Quoted.text name}."
  | .extraArguments arguments =>
      let noun := if arguments.length = 1 then "argument" else "arguments"
      s!"Got unexpected extra {noun} (" ++ joined " " arguments ++ ")"
  | .missingArgument name => s!"Missing argument '{name}'."
  | .badValue parameter cause => s!"Invalid value for {parameter}: " ++ cause.message
  | .noSuchOption name similar => s!"No such option: {name}" ++ suggestion similar
  | .needsArgument option => s!"Option {Quoted.text option} requires an argument."
  | .takesNoValue option => s!"Option {Quoted.text option} does not take a value."

/-- The form of an option: its name, the letter that also stands for it, what its value is called
if it takes one, and what it is for. -/
structure OptionForm where
  name : String
  letter : Option Char := none
  valueName : Option String := none
  purpose : String
  deriving Repr, Inhabited

namespace OptionForm

def takesValue (o : OptionForm) : Bool := o.valueName.isSome

def spellings (o : OptionForm) : List String :=
  ((o.letter.map fun c => String.ofList ['-', c]).toList) ++ [o.name]

end OptionForm

/-- The options of a command, and whether they may stand after arguments. -/
structure Grammar where
  options : List OptionForm
  isMixed : Bool
  deriving Repr, Inhabited

/-- What stands on a command line: options with their values in order, and arguments. -/
structure Reading where
  options : List (String × String) := []
  arguments : List String := []
  deriving DecidableEq, Repr, Inhabited

namespace Reading

def has (r : Reading) (name : String) : Bool := r.options.any fun o => o.1 = name

def values (r : Reading) (name : String) : List String :=
  (r.options.filter fun o => o.1 = name).map (·.2)

def value? (r : Reading) (name : String) : Option String := (r.values name).getLast?

end Reading

namespace Grammar

/-- The options in a word, and the spelling of the last of them if its value is yet to come. -/
structure Word where
  options : List (String × String)
  awaiting : Option (String × OptionForm)

def Word.after (o : OptionForm) (w : Word) : Word := { w with options := (o.name, "") :: w.options }

def lettersIn (g : Grammar) : List Char → Except UsageError Word
  | [] => .ok ⟨[], none⟩
  | c :: rest =>
      let spelling := String.ofList ['-', c]
      match g.options.find? fun o => o.letter = some c with
      | none => .error (.noSuchOption spelling [])
      | some o =>
          if o.takesValue then
            if rest.isEmpty then .ok ⟨[], some (spelling, o)⟩
            else .ok ⟨[(o.name, String.ofList rest)], none⟩
          else (lettersIn g rest).map (Word.after o)

def named (o : OptionForm) (value : Option String) : Except UsageError Word :=
  match o.takesValue, value with
  | true, some v => .ok ⟨[(o.name, v)], none⟩
  | true, none => .ok ⟨[], some (o.name, o)⟩
  | false, some _ => .error (.takesNoValue o.name)
  | false, none => .ok ⟨[(o.name, "")], none⟩

/-- The name in a word and the value after an equals sign. -/
def split (word : List Char) : String × Option String :=
  let name := String.ofList (word.takeWhile (· ≠ '='))
  match word.dropWhile (· ≠ '=') with
  | [] => (name, none)
  | _ :: value => (name, some (String.ofList value))

def optionsIn (g : Grammar) (word : List Char) : Except UsageError Word :=
  let (name, value) := split word
  match g.options.find? fun o => o.name = name with
  | some o => named o value
  | none =>
      match word with
      | '-' :: '-' :: _ =>
          .error (.noSuchOption name (Similarity.closest name (g.options.map OptionForm.name)))
      | word => lettersIn g word.tail

/-- Whether a word is an option; a lone dash is none. -/
def isOption : List Char → Bool
  | '-' :: _ :: _ => true
  | _ => false

/-- Reads the words of a command line, the first of which may be the value of an option. -/
def readFrom (g : Grammar) (awaiting : Option (String × OptionForm)) :
    List String → Except UsageError Reading
  | [] =>
      match awaiting with
      | some (spelling, _) => .error (.needsArgument spelling)
      | none => .ok {}
  | word :: rest =>
      match awaiting with
      | some (_, o) => do
          let r ← readFrom g none rest
          return { r with options := (o.name, word) :: r.options }
      | none =>
          if word = "--" then .ok { arguments := rest }
          else if isOption word.toList then do
            let w ← g.optionsIn word.toList
            let r ← readFrom g w.awaiting rest
            return { r with options := w.options ++ r.options }
          else if g.isMixed then do
            let r ← readFrom g none rest
            return { r with arguments := word :: r.arguments }
          else .ok { arguments := word :: rest }

def read (g : Grammar) (words : List String) : Except UsageError Reading := g.readFrom none words

end Grammar

end FunctionPipeline.CommandLine

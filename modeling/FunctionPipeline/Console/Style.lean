import FunctionPipeline.Console.Colour

/-!
Styles: switches such as `bold` that are on or off, a colour, a background and a link. A style is
named by words in any order; `TextStyle.normalize` gives the name that all names of one style share.
-/

namespace FunctionPipeline

/-- What is known of how a text looks. -/
structure TextStyle where
  /-- The switches that were set, the last one first. -/
  switches : List (String × Bool) := []
  colour : Option (List Char) := none
  background : Option (List Char) := none
  link : Option (List Char) := none
  deriving DecidableEq, Repr, Inhabited

namespace TextStyle

/-- The switches in the order of normal names, each with its short name if it has one. -/
def allSwitches : List (String × Option String) :=
  [("bold", some "b"), ("dim", some "d"), ("italic", some "i"), ("underline", some "u"),
    ("blink", none), ("blink2", none), ("reverse", some "r"), ("conceal", some "c"),
    ("strike", some "s"), ("underline2", some "uu"), ("frame", none), ("encircle", none),
    ("overline", some "o")]

def switch? (word : List Char) : Option String :=
  let word := String.ofList word
  (allSwitches.find? fun s => s.1 == word || s.2 == some word).map (·.1)

def turn (style : TextStyle) (name : String) (on : Bool) : TextStyle :=
  { style with switches := (name, on) :: style.switches }

def ofWords (style : TextStyle) : List (List Char) → Except StyleError TextStyle
  | [] => .ok style
  | [word] => one style word
  | word :: next :: rest =>
      let name := String.ofList (lowerCase word)
      if name == "on" then do
        ofWords { style with background := some (← Colour.normalize next) } rest
      else if name == "not" then
        match switch? next with
        | some switch => ofWords (style.turn switch false) rest
        | none => .error .unknown
      else if name == "link" then ofWords { style with link := some next } rest
      else do ofWords (← one style word) (next :: rest)
where
  /-- With what a single word asks for. -/
  one (style : TextStyle) (word : List Char) : Except StyleError TextStyle :=
    let name := lowerCase word
    if ["on", "not", "link"].contains (String.ofList name) then .error .unknown
    else
      match switch? name with
      | some switch => .ok (style.turn switch true)
      | none => do return { style with colour := some (← Colour.normalize name) }

def words (style : TextStyle) : List String :=
  let switches := allSwitches.filterMap fun s =>
    (style.switches.find? (·.1 == s.1)).map fun e => if e.2 then s.1 else "not " ++ s.1
  let named := fun (mark : List String) (name : Option (List Char)) =>
    match name with
    | some name => mark ++ [String.ofList name]
    | none => []
  switches ++ named [] style.colour ++ named ["on"] style.background ++ named ["link"] style.link

def name (style : TextStyle) : List Char :=
  let words := style.words
  (if words.isEmpty then "none" else joined " " words).toList

def ofText (s : List Char) : Except StyleError TextStyle :=
  if String.ofList (strip s) == "none" then .ok {} else ofWords {} (blankSeparated s)

/-- The normal name of a style; other texts lose the blanks around them and their case. -/
def normalize (s : List Char) : Except StyleError (List Char) :=
  match ofText s with
  | .ok style => .ok style.name
  | .error .unknown => .ok (lowerCase (strip s))
  | .error .badAmount => .error .badAmount

def isBad (s : List Char) : Bool :=
  match ofText s with
  | .error .badAmount => true
  | _ => false

end TextStyle

end FunctionPipeline

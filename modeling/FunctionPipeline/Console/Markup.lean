import FunctionPipeline.Console.Emoji
import FunctionPipeline.Console.Literal
import FunctionPipeline.Console.Style
import FunctionPipeline.Text.Word

/-!
Texts with tags in brackets, which say how what is between them looks. A tag is closed by one that
names the same style after a slash, or by a slash alone; at the end of the text all are closed. A
backslash before a tag makes it a part of the text. Between the tags names of pictures stand for
the pictures.
-/

namespace FunctionPipeline.Markup

inductive Error where
  /-- There is no open tag of the name. -/
  | notOpen (name : List Char)
  | nothingOpen
  /-- What a handler's tag holds is no literal. -/
  | notLiteral (argument : List Char)
  /-- A colour of which an amount cannot be read. -/
  | badColour
  deriving DecidableEq, Repr

/-- A tag: its name, and what follows an equals sign. -/
structure Tag where
  name : List Char
  argument : Option (List Char)
  deriving DecidableEq, Repr

inductive Part where
  | text (s : List Char)
  | opening (tag : Tag)
  | closing (name : List Char)
  | closingLast
  deriving DecidableEq, Repr

def startsTag (c : Char) : Bool := ('a' ≤ c && c ≤ 'z') || c = '#' || c = '/' || c = '@'

def tagAt? : List Char → Option (List Char)
  | '[' :: c :: rest =>
      if !startsTag c then none
      else
        let more := rest.takeWhile fun c => c ≠ '[' && c ≠ ']'
        if (rest.drop more.length).head? = some ']' then some (c :: more) else none
  | _ => none

def partOf (tag : List Char) : Part :=
  let name := tag.takeWhile (· ≠ '=')
  match name with
  | '/' :: name => if (strip name).isEmpty then .closingLast else .closing (strip name)
  | name => .opening ⟨name, (tag.drop name.length).tail?⟩

/-- The parts that backslashes and the tag after them are: half of the backslashes, and the tag as
text if their number is odd. -/
def escapedParts (count : Nat) (tag : List Char) : List Part :=
  [.text (List.replicate (count / 2) '\\'),
    if count % 2 = 0 then partOf tag else .text ('[' :: tag ++ [']'])]

/-- The parts at the start of a text if it starts with a tag or with backslashes before one, and
how many characters they take. -/
def marksAt? (s : List Char) : Option (List Part × Nat) :=
  let count := (s.takeWhile (· = '\\')).length
  (tagAt? (s.drop count)).map fun tag => (escapedParts count tag, count + tag.length + 2)

/-- The parts of a text: `before` comes first, the last character in front, and some characters are
passed over. -/
def partsFrom (before : List Char) : Nat → List Char → List Part
  | _, [] => [.text before.reverse]
  | skip + 1, _ :: rest => partsFrom before skip rest
  | 0, c :: rest =>
      match marksAt? (c :: rest) with
      | some (parts, count) => .text before.reverse :: parts ++ partsFrom [] (count - 1) rest
      | none => partsFrom (c :: before) 0 rest

/-- Characters that are left out: those that ring, go back or leave the line. -/
def isDropped (c : Char) : Bool := [7, 8, 11, 12, 13].contains c.toNat

def unescaped : List Char → List Char
  | '\\' :: '[' :: rest => '[' :: unescaped rest
  | c :: rest => c :: unescaped rest
  | [] => []

def shown (s : List Char) : List Char := (Emoji.replaced (unescaped s)).filter (!isDropped ·)

def styleName (s : List Char) : Except Error (List Char) :=
  (TextStyle.normalize s).mapError fun _ => .badColour

/-- What a handler is called with, if an argument without blanks around it is a name with maybe
parentheses after it; else the argument itself is meant. -/
def callOf (argument : List Char) : List Char :=
  let rest := argument.dropWhile fun c => isWord c || c = '.'
  if rest.isEmpty then ['(', ')']
  else if rest.head? = some '(' && rest.length > 1 && rest.getLast? = some ')' && !rest.contains '\n'
  then rest
  else argument

def checkHandler (tag : Tag) : Except Error Unit :=
  match tag.argument with
  | none | some [] => .ok ()
  | some argument =>
      if Literal.isOne (callOf (strip argument)) then .ok () else .error (.notLiteral argument)

def checkClosed (tag : Tag) : Except Error Unit :=
  if tag.name.head? = some '@' then checkHandler tag else .ok ()

def close (name : List Char) : List Tag → Except Error (Tag × List Tag)
  | [] => .error (.notOpen name)
  | top :: below =>
      if top.name = name then .ok (top, below)
      else do
        let (tag, below) ← close name below
        return (tag, top :: below)

/-- The characters of parts, given the open tags, the last one first. -/
def charsOf (tags : List Tag) : List Part → Except Error (List Char)
  | [] => .ok []
  | .text s :: rest => do return shown s ++ (← charsOf tags rest)
  | .opening tag :: rest => do
      let tag := { tag with name := ← styleName tag.name }
      charsOf (tag :: tags) rest
  | .closing name :: rest => do
      let (tag, tags) ← close (← styleName name) tags
      checkClosed tag
      charsOf tags rest
  | .closingLast :: rest =>
      match tags with
      | [] => .error .nothingOpen
      | tag :: tags => do
          checkClosed tag
          charsOf tags rest

/-- The tags that parts open, with the normal names of their styles. -/
def opened (parts : List Part) : Except Error (List Tag) :=
  (parts.filterMap fun part => match part with
    | .opening tag => some tag
    | _ => none).mapM fun tag => do return { tag with name := ← styleName tag.name }

/-- Whether a tag with its argument names a style with a colour of which an amount cannot be read.
A handler's tag is no style. -/
def isBad (tag : Tag) : Bool :=
  match tag.argument with
  | some argument => tag.name.head? != some '@' && TextStyle.isBad (tag.name ++ ' ' :: argument)
  | none => false

def chars (s : List Char) : Except Error (List Char) := do
  let parts := partsFrom [] 0 s
  let found ← charsOf [] parts
  if (← opened parts).any isBad then throw .badColour
  return found

end FunctionPipeline.Markup

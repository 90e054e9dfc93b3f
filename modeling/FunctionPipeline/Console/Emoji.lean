import FunctionPipeline.Console.EmojiNames
import FunctionPipeline.Text.Hex
import FunctionPipeline.Text.Lower
import FunctionPipeline.Text.Pieces

/-!
Pictures in place of their names between colons. The names may be in any case. A name may say in
the end whether the picture is to look like text or in colour.
-/

namespace FunctionPipeline.Emoji

/-- Words two by two: what comes first names what comes second. -/
def pairs : List (List Char) → List (List Char × List Char)
  | name :: code :: rest => (name, code) :: pairs rest
  | _ => []

def entriesIn (names : String) : List (List Char × List Char) := pairs (blankSeparated names.toList)

def toned : List (List Char × List Char) := entriesIn tonedNames

/-- Flags that have two names. -/
def flags : List (List Char × List Char) := entriesIn flagNames

/-- Flags that have the one name. -/
def otherFlags : List (List Char × List Char) := entriesIn otherFlagNames

def pictures : List (List Char × List Char) :=
  (("copy" ++ "right").toList, "a9".toList) :: entriesIn pictureNames

/-- The skin tones and what asks for them after a character. -/
def tones : List (String × Char) :=
  [("light", Char.ofNat 0x1F3FB), ("medium-light", Char.ofNat 0x1F3FC), ("medium", Char.ofNat 0x1F3FD),
    ("medium-dark", Char.ofNat 0x1F3FE), ("dark", Char.ofNat 0x1F3FF)]

def textVariant : Char := '\uFE0E'

def pictureVariant : Char := '\uFE0F'

def lookUp (entries : List (List Char × List Char)) (name : List Char) : Option (List Char) :=
  (entries.find? (·.1 == name)).map (·.2)

def charsOf (code : List Char) : List Char :=
  (pieces '-' code).filterMap fun digits => (hexNumber? digits).map Char.ofNat

def flagOf (letters : List Char) : List Char :=
  letters.map fun c => Char.ofNat (0x1F1E6 + (c.toNat - 'a'.toNat))

/-- A picture in a skin tone, which is asked for after the first character. -/
def inTone (tone : Char) : List Char → List Char
  | first :: rest =>
      first :: tone :: if rest.head? = some pictureVariant then rest.drop 1 else rest
  | [] => []

def withoutEnding? (ending s : List Char) : Option (List Char) :=
  if ending.isSuffixOf s then some (s.take (s.length - ending.length)) else none

def inToneNamed? (name : List Char) : Option (List Char) :=
  tones.firstM fun (tone, mark) => do
    let base ← withoutEnding? ("_" ++ tone ++ "_skin_tone").toList name
    return inTone mark (charsOf (← lookUp toned base))

def flagNamed? (name : List Char) : Option (List Char) :=
  let letters := (lookUp flags name).or <| (lookUp otherFlags name).or <|
    (afterWord? "flag_for_" name).bind (lookUp flags)
  letters.map flagOf

def named? (name : List Char) : Option (List Char) :=
  (((lookUp pictures name).or (lookUp toned name)).map charsOf).or <|
    (flagNamed? name).or (inToneNamed? name)

structure Code where
  name : List Char
  variant : List Char
  /-- How many characters the name takes with all that belongs to it and the closing colon. -/
  length : Nat

/-- The name after a colon, up to the next one, without white space in it. -/
def codeAfter? : List Char → Option Code
  | [] => none
  | c :: rest =>
      if (afterWord? "-emoji:" (c :: rest)).isSome then some ⟨[], [pictureVariant], 7⟩
      else if (afterWord? "-text:" (c :: rest)).isSome then some ⟨[], [textVariant], 6⟩
      else if c = ':' then some ⟨[], [], 1⟩
      else if isBlank c then none
      else (codeAfter? rest).map fun code =>
        { code with name := c :: code.name, length := code.length + 1 }

/-- A text with pictures in place of their names, after some characters that are passed over. -/
def replacedFrom : Nat → List Char → List Char
  | _, [] => []
  | skip + 1, _ :: rest => replacedFrom skip rest
  | 0, c :: rest =>
      match if c = ':' then codeAfter? rest else none with
      | none => c :: replacedFrom 0 rest
      | some code =>
          let shown := match named? (lowerCase code.name) with
            | some picture => picture ++ code.variant
            | none => c :: rest.take code.length
          shown ++ replacedFrom code.length rest

def replaced (s : List Char) : List Char := replacedFrom 0 s

end FunctionPipeline.Emoji

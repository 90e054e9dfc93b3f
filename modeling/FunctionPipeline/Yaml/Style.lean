import FunctionPipeline.Yaml.Characters
import FunctionPipeline.Yaml.Tag

/-!
The style a text is written in. `Analysis.of` reads off a text which styles can show it;
`chooseStyle` takes the plain one if it reads back as a text, a literal block for a text with line
feeds, else quotes.
-/

namespace FunctionPipeline.Yaml

inductive Style where
  | plain
  | singleQuoted
  | doubleQuoted
  | literal
  deriving DecidableEq, Repr

/-- What a text has that keeps it from some style. -/
structure Analysis where
  empty : Bool
  multiline : Bool
  allowPlain : Bool
  allowSingleQuoted : Bool
  allowLiteral : Bool
  deriving DecidableEq, Repr

namespace Analysis

def isLeadIndicator (c : Char) : Bool :=
  ['#', ',', '[', ']', '\x7b', '\x7d', '&', '*', '!', '|', '>', '\'', '"', '%', '@', '\x60'].contains c

/-- Whether the first character, with the one after it, is an indicator. -/
def leadsWithIndicator : List Char → Bool
  | [] => false
  | c :: rest =>
      isLeadIndicator c || ((c = '?' || c = ':' || c = '-') && separates rest.head?)

/-- Whether a colon before a separation, or a number sign after one, stands in a text after its
first character, which is given. -/
def holdsIndicator : Char → List Char → Bool
  | _, [] => false
  | before, c :: rest =>
      (c = ':' && separates rest.head?) || (c = '#' && isSeparating before) ||
        holdsIndicator c rest

def leadsLikeMarker (s : List Char) : Bool :=
  ['-', '-', '-'].isPrefixOf s || ['.', '.', '.'].isPrefixOf s

/-- Whether a text holds something that ends or alters a plain scalar. -/
def hasIndicators (s : List Char) : Bool :=
  leadsLikeMarker s || leadsWithIndicator s ||
    match s with
    | [] => false
    | c :: rest => holdsIndicator c rest

def isSpecial (c : Char) : Bool :=
  let n := c.toNat
  !(c = '\n' || (0x20 ≤ n && n ≤ 0x7E) ||
    ((n == 0x85 || (0xA0 ≤ n && n ≤ 0xD7FF) || (0xE000 ≤ n && n ≤ 0xFFFD) ||
      (0x10000 ≤ n && n < 0x10FFFF)) && c != byteOrderMark))

def anyPair (p q : Char → Bool) : List Char → Bool
  | a :: b :: rest => (p a && q b) || anyPair p q (b :: rest)
  | _ => false

def isSpace (c : Char) : Bool := c = ' '

/-- Whether a property holds of the first or the last character. -/
def atEnds (p : Char → Bool) (s : List Char) : Bool :=
  (s.head?.map p).getD false || (s.getLast?.map p).getD false

def of (s : List Char) : Analysis :=
  if s.isEmpty then ⟨true, false, true, true, false⟩
  else
    let multiline := s.any isBreak
    let breakThenSpace := anyPair isBreak isSpace s
    let spaceThenBreak := anyPair isSpace isBreak s
    let special := s.any isSpecial
    let awkward := spaceThenBreak || special
    { empty := false
      multiline
      allowPlain := !(atEnds isSpace s || atEnds isBreak s || breakThenSpace || awkward ||
        multiline || hasIndicators s)
      allowSingleQuoted := !(breakThenSpace || awkward)
      allowLiteral := !(s.getLast? == some ' ' || awkward) }

end Analysis

/-- Where a scalar stands: as a key on one line, or anywhere else. -/
inductive Place where
  | simpleKey
  | block
  deriving DecidableEq, Repr

def chooseStyle (place : Place) (s : List Char) : Style :=
  let a := Analysis.of s
  if s.contains '\n' then
    if place = .block && a.allowLiteral then .literal else .doubleQuoted
  else if Plain.tag s = .str && !(place = .simpleKey && (a.empty || a.multiline)) && a.allowPlain then
    .plain
  else if a.allowSingleQuoted && !(place = .simpleKey && a.multiline) then .singleQuoted
  else .doubleQuoted

def simpleKeyLimit : Nat := 123

/-- Whether a text can be a key on one line: not too long, not empty, and of one line. -/
def isSimpleKey (s : List Char) : Bool :=
  s.length < simpleKeyLimit && !s.isEmpty && !s.any isBreak

end FunctionPipeline.Yaml

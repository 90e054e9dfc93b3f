/-!
The characters that the scalars of a YAML text are made of: line ends, blanks, and the characters
that a text may hold at all.
-/

namespace FunctionPipeline.Yaml

/-- The characters that end a line of a written scalar. -/
def isBreak (c : Char) : Bool :=
  c = '\n' || c = '\x85' || c = '\u2028' || c = '\u2029'

/-- The characters that end a line of a text being read: a carriage return too. -/
def isLineEnd (c : Char) : Bool := c = '\r' || isBreak c

def isSeparating (c : Char) : Bool := c = ' ' || c = '\t' || isLineEnd c

/-- Whether a separating character or the end of the text stands at a place. -/
def separates : Option Char → Bool
  | none => true
  | some c => isSeparating c

def endsLine : Option Char → Bool
  | none => true
  | some c => isLineEnd c

def isAllowed (c : Char) : Bool :=
  let n := c.toNat
  n == 9 || n == 10 || n == 13 || (0x20 ≤ n && n ≤ 0x7E) || n == 0x85 ||
    (0xA0 ≤ n && n ≤ 0xD7FF) || (0xE000 ≤ n && n ≤ 0xFFFD) || 0x10000 ≤ n

/-- The byte order mark, which takes no column. -/
def byteOrderMark : Char := '\uFEFF'

/-- ASCII letters, digits, hyphens and underscores, which anchors and handles are made of. -/
def isNameChar (c : Char) : Bool := c.isAlphanum || c = '-' || c = '_'

end FunctionPipeline.Yaml

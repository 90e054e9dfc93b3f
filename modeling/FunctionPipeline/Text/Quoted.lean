import FunctionPipeline.Text.Hex
import FunctionPipeline.Text.Printable

/-!
Texts in quotes with escapes, as messages show them. The quote is a single one unless the text
has single quotes and no double ones.
-/

namespace FunctionPipeline.Quoted

def quote (s : List Char) : Char :=
  if s.contains '\'' && !s.contains '"' then '"' else '\''

/-- The escape of a code point by its number, as short as it can be. -/
def numericEscape (n : Nat) : List Char :=
  if n < 256 then '\\' :: 'x' :: hexDigits 2 n
  else if n < 65536 then '\\' :: 'u' :: hexDigits 4 n
  else '\\' :: 'U' :: hexDigits 8 n

def escaped (quote c : Char) : List Char :=
  if c = quote || c = '\\' then ['\\', c]
  else if c = '\n' then ['\\', 'n']
  else if c = '\r' then ['\\', 'r']
  else if c = '\t' then ['\\', 't']
  else if isPrintable c then [c]
  else numericEscape c.toNat

def text (s : String) : String :=
  let cs := s.toList
  let q := quote cs
  String.ofList (q :: cs.flatMap (escaped q) ++ [q])

/-- Octets in quotes: those of ASCII as characters, others as escapes, with a letter in front. -/
def octets (bytes : List UInt8) : String :=
  let cs := bytes.map fun b => Char.ofNat b.toNat
  let q := quote cs
  let shown := fun c : Char => if c.toNat < 127 then escaped q c else numericEscape c.toNat
  String.ofList ('b' :: q :: cs.flatMap shown ++ [q])

end FunctionPipeline.Quoted

import FunctionPipeline.Fault
import FunctionPipeline.Text.Utf8

/-!
Encodings of texts as octets, by name, and codecs, which take a text piece by piece and may hold
some of it back until they are finished. A name is taken without regard to case and to which mark
stands between its parts. The encodings listed here hold nothing back. Every other codec is a
parameter of what uses one; one of them is that of domain names, which holds a label back until it
sees the dot behind it.
-/

namespace FunctionPipeline

inductive Encoding where
  | utf8
  | utf8Marked
  | ascii
  | latin1
  | latin9
  | windows1252
  | utf16
  | utf16Little
  | utf16Big
  | utf32
  | utf32Little
  | utf32Big
  deriving DecidableEq, Repr

namespace Encoding

def names : List (String × Encoding) :=
  [("utf_8", .utf8), ("utf8", .utf8), ("u8", .utf8), ("utf", .utf8), ("cp65001", .utf8),
   ("utf8_ucs2", .utf8), ("utf8_ucs4", .utf8), ("utf_8_sig", .utf8Marked), ("ascii", .ascii),
   ("us_ascii", .ascii), ("646", .ascii), ("us", .ascii), ("cp367", .ascii), ("ibm367", .ascii),
   ("iso646_us", .ascii), ("iso_646.irv_1991", .ascii), ("iso_ir_6", .ascii),
   ("csascii", .ascii), ("ansi_x3.4_1968", .ascii), ("ansi_x3_4_1968", .ascii),
   ("ansi_x3.4_1986", .ascii), ("latin_1", .latin1), ("latin1", .latin1), ("latin", .latin1),
   ("l1", .latin1), ("8859", .latin1), ("iso8859", .latin1), ("iso8859_1", .latin1),
   ("iso_8859_1", .latin1), ("iso_8859_1_1987", .latin1), ("iso_ir_100", .latin1),
   ("csisolatin1", .latin1), ("cp819", .latin1), ("ibm819", .latin1), ("iso8859_15", .latin9),
   ("iso_8859_15", .latin9), ("latin9", .latin9), ("l9", .latin9), ("cp1252", .windows1252),
   ("windows_1252", .windows1252), ("1252", .windows1252), ("utf_16", .utf16),
   ("utf16", .utf16), ("u16", .utf16), ("utf_16_le", .utf16Little), ("utf_16le", .utf16Little),
   ("unicodelittleunmarked", .utf16Little), ("utf_16_be", .utf16Big), ("utf_16be", .utf16Big),
   ("unicodebigunmarked", .utf16Big), ("utf_32", .utf32), ("utf32", .utf32), ("u32", .utf32),
   ("utf_32_le", .utf32Little), ("utf_32le", .utf32Little), ("utf_32_be", .utf32Big),
   ("utf_32be", .utf32Big)]

/-- A name in lower case, with one underscore for each run of other marks between its parts. -/
def plainName (name : String) : String :=
  let step := fun (acc : List Char) (c : Char) =>
    if c.isAlphanum || c = '.' then c.toLower :: acc
    else
      match acc with
      | [] => []
      | '_' :: _ => acc
      | _ => '_' :: acc
  String.ofList (((name.toList.foldl step []).dropWhile (· = '_')).reverse)

def ofName? (name : String) : Option Encoding := names.lookup (plainName name)

/-- The octets of a number, as many as asked for, the lowest first. -/
def littleOctets (width n : Nat) : List UInt8 :=
  (List.range width).map fun i => (n / Nat.pow 256 i).toUInt8

def units16 (c : Char) : List Nat :=
  if c.toNat < 0x10000 then [c.toNat]
  else
    let n := c.toNat - 0x10000
    [0xD800 + n / 0x400, 0xDC00 + n % 0x400]

/-- The characters that the ninth Latin character set has in place of others, by code point. -/
def latin9Octets : List (Nat × UInt8) :=
  [(0x20AC, 0xA4), (0x0160, 0xA6), (0x0161, 0xA8), (0x017D, 0xB4), (0x017E, 0xB8), (0x0152, 0xBC),
   (0x0153, 0xBD), (0x0178, 0xBE)]

/-- The characters for which the Windows character set has the octets of controls, by code point. -/
def windows1252Octets : List (Nat × UInt8) :=
  [(0x20AC, 0x80), (0x201A, 0x82), (0x0192, 0x83), (0x201E, 0x84), (0x2026, 0x85), (0x2020, 0x86),
   (0x2021, 0x87), (0x02C6, 0x88), (0x2030, 0x89), (0x0160, 0x8A), (0x2039, 0x8B), (0x0152, 0x8C),
   (0x017D, 0x8E), (0x2018, 0x91), (0x2019, 0x92), (0x201C, 0x93), (0x201D, 0x94), (0x2022, 0x95),
   (0x2013, 0x96), (0x2014, 0x97), (0x02DC, 0x98), (0x2122, 0x99), (0x0161, 0x9A), (0x203A, 0x9B),
   (0x0153, 0x9C), (0x017E, 0x9E), (0x0178, 0x9F)]

/-- The octet of a character in a set of 256: the one that a table has for it, or else its code
point, unless that octet is taken. -/
def octetIn? (table : List (Nat × UInt8)) (isTaken : Nat → Bool) (c : Char) :
    Option (List UInt8) :=
  match table.lookup c.toNat with
  | some octet => some [octet]
  | none => if c.toNat < 256 && !isTaken c.toNat then some [c.toNat.toUInt8] else none

def octetsOf? : Encoding → Char → Option (List UInt8)
  | .utf8, c | .utf8Marked, c => some (Utf8.octetsOf c.toNat)
  | .ascii, c => if c.toNat < 128 then some [c.toNat.toUInt8] else none
  | .latin1, c => if c.toNat < 256 then some [c.toNat.toUInt8] else none
  | .latin9, c => octetIn? latin9Octets (fun n => latin9Octets.any fun e => e.2.toNat = n) c
  | .windows1252, c => octetIn? windows1252Octets (fun n => 128 ≤ n && n < 160) c
  | .utf16, c | .utf16Little, c => some ((units16 c).flatMap (littleOctets 2))
  | .utf16Big, c => some ((units16 c).flatMap fun u => (littleOctets 2 u).reverse)
  | .utf32, c | .utf32Little, c => some (littleOctets 4 c.toNat)
  | .utf32Big, c => some (littleOctets 4 c.toNat).reverse

def mark : Encoding → List UInt8
  | .utf8Marked => [0xEF, 0xBB, 0xBF]
  | .utf16 => [0xFF, 0xFE]
  | .utf32 => [0xFF, 0xFE, 0, 0]
  | _ => []

def encodeAll? (e : Encoding) : List Char → Option (List UInt8)
  | [] => some []
  | c :: rest => do return (← e.octetsOf? c) ++ (← encodeAll? e rest)

def encode? (e : Encoding) (s : List Char) : Option (List UInt8) :=
  (e.encodeAll? s).map (e.mark ++ ·)

end Encoding

/-- A codec takes texts one after the other and gives octets out for each. What it still holds back
then comes out when it is finished. -/
structure Codec where
  State : Type
  start : State
  feed : State → List Char → Except Fault (State × List UInt8)
  finish : State → Except Fault (List UInt8)

namespace Codec

/-- The octets that come out for a text while the codec is not finished. -/
def given (c : Codec) (s : List Char) : Except Fault (List UInt8) := do
  return (← c.feed c.start s).2

def encode (c : Codec) (s : List Char) : Except Fault (List UInt8) := do
  let (state, octets) ← c.feed c.start s
  return octets ++ (← c.finish state)

/-- Nothing of a text is held back. -/
def GivesAll (c : Codec) (s : List Char) : Prop :=
  ∀ state octets, c.feed c.start s = .ok (state, octets) → c.finish state = .ok []

end Codec

/-- The state of the codec of an encoding says whether the mark in front of the text is written. -/
def Encoding.codec (e : Encoding) : Codec where
  State := Bool
  start := false
  feed marked s :=
    match if marked then e.encodeAll? s else e.encode? s with
    | some octets => .ok (true, octets)
    | none => .error .unencodable
  finish _ := .ok []

namespace DomainName

/-- The full stop and its wide, halfwidth and ideographic forms end a label. -/
def isDot (c : Char) : Bool := ['.', '\u3002', '\uff0e', '\uff61'].contains c

/-- The labels of a text that end in a dot, and what follows the last dot. -/
def labels : List Char → List (List Char) × List Char
  | [] => ([], [])
  | c :: rest =>
      let (complete, last) := labels rest
      if isDot c then ([] :: complete, last)
      else
        match complete with
        | [] => ([], c :: last)
        | first :: others => ((c :: first) :: others, last)

/-- A label has 1 to 63 characters. One beyond ASCII needs a form in ASCII. -/
def labelOctets (asciiForm : List Char → Except Fault (List UInt8)) (label : List Char) :
    Except Fault (List UInt8) :=
  if label.all (·.toNat < 128) then
    if 0 < label.length && label.length < 64 then .ok (label.map (·.toNat.toUInt8))
    else .error .badLabel
  else asciiForm label

/-- The state of the codec of domain names is the label that may not be complete yet. -/
def codec (asciiForm : List Char → Except Fault (List UInt8)) : Codec where
  State := List Char
  start := []
  feed held s := do
    let (complete, last) := labels (held ++ s)
    let octets ← complete.mapM (labelOctets asciiForm)
    return (last, octets.flatMap (· ++ [0x2E]))
  finish held := if held.isEmpty then .ok [] else labelOctets asciiForm held

end DomainName

abbrev Codecs := String → Option Codec

namespace Codecs

/-- The codec of domain names in ASCII is the only one. -/
def usual : Codecs := fun name =>
  if Encoding.plainName name = "idna" then some (DomainName.codec fun _ => .error .badLabel)
  else none

def find? (codecs : Codecs) (name : String) : Option Codec :=
  match Encoding.ofName? name with
  | some e => some e.codec
  | none => codecs name

end Codecs

end FunctionPipeline

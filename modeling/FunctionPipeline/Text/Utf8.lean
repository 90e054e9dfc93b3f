/-!
UTF-8: the octets of characters and back. Reading refuses surrogates, overlong forms and octets
that stand alone, so that each text has one form.
-/

namespace FunctionPipeline.Utf8

def octetsOf (n : Nat) : List UInt8 :=
  if n < 0x80 then [n.toUInt8]
  else if n < 0x800 then [(0xC0 + n / 0x40).toUInt8, (0x80 + n % 0x40).toUInt8]
  else if n < 0x10000 then
    [(0xE0 + n / 0x1000).toUInt8, (0x80 + n / 0x40 % 0x40).toUInt8, (0x80 + n % 0x40).toUInt8]
  else
    [(0xF0 + n / 0x40000).toUInt8, (0x80 + n / 0x1000 % 0x40).toUInt8,
      (0x80 + n / 0x40 % 0x40).toUInt8, (0x80 + n % 0x40).toUInt8]

def encode (s : List Char) : List UInt8 := s.flatMap fun c => octetsOf c.toNat

def continuation? (b : UInt8) : Option Nat :=
  if 0x80 ≤ b ∧ b < 0xC0 then some (b.toNat - 0x80) else none

/-- The character with a code point that takes at least `least` octets' worth of bits. -/
def charFrom? (least n : Nat) : Option Char :=
  if least ≤ n ∧ n.isValidChar then some (Char.ofNat n) else none

def decode? : List UInt8 → Option (List Char)
  | [] => some []
  | a :: rest =>
      if a < 0x80 then (decode? rest).map (Char.ofNat a.toNat :: ·)
      else if a < 0xC2 then none
      else if a < 0xE0 then
        match rest with
        | b :: rest => do
            let n := (a.toNat - 0xC0) * 0x40 + (← continuation? b)
            let c ← charFrom? 0x80 n
            (decode? rest).map (c :: ·)
        | _ => none
      else if a < 0xF0 then
        match rest with
        | b :: c :: rest => do
            let n := ((a.toNat - 0xE0) * 0x40 + (← continuation? b)) * 0x40 + (← continuation? c)
            let c ← charFrom? 0x800 n
            (decode? rest).map (c :: ·)
        | _ => none
      else if a < 0xF5 then
        match rest with
        | b :: c :: d :: rest => do
            let high := ((a.toNat - 0xF0) * 0x40 + (← continuation? b)) * 0x40 +
              (← continuation? c)
            let c ← charFrom? 0x10000 (high * 0x40 + (← continuation? d))
            (decode? rest).map (c :: ·)
        | _ => none
      else none

/-- How many octets a character takes that starts with an octet, the least and the largest octet
that may follow; nothing if none starts with it. -/
def form? (a : UInt8) : Option (Nat × UInt8 × UInt8) :=
  if a < 0xC2 then none
  else if a < 0xE0 then some (2, 0x80, 0xBF)
  else if a < 0xF0 then
    some (3, if a = 0xE0 then 0xA0 else 0x80, if a = 0xED then 0x9F else 0xBF)
  else if a < 0xF5 then
    some (4, if a = 0xF0 then 0x90 else 0x80, if a = 0xF4 then 0x8F else 0xBF)
  else none

/-- How many octets at the start of others, after the first one, belong to a character that they
are no more than the start of. -/
def begun : Nat → UInt8 → UInt8 → List UInt8 → Nat
  | wanted + 1, least, largest, b :: rest =>
      if least ≤ b ∧ b ≤ largest then 1 + begun wanted 0x80 0xBF rest else 0
  | _, _, _, _ => 0

/-- The text of octets of any kind: a replacement character stands for each start of a character
that is broken off and for each octet that starts none. Some octets at the start are passed over,
as they belong to a character already read. -/
def decodeAll (skipped : Nat) : List UInt8 → List Char
  | [] => []
  | a :: rest =>
      match skipped with
      | skipped + 1 => decodeAll skipped rest
      | 0 =>
          if a < 0x80 then Char.ofNat a.toNat :: decodeAll 0 rest
          else
            match form? a with
            | none => '\ufffd' :: decodeAll 0 rest
            | some (width, least, largest) =>
                let more := begun (width - 1) least largest rest
                let read := if more + 1 = width then decode? (a :: rest.take more) else none
                (read.getD ['\ufffd']) ++ decodeAll more rest

end FunctionPipeline.Utf8

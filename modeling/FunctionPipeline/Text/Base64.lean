/-!
Base64. Reading skips characters outside the alphabet and stops at complete padding; what is left
over must be nothing.
-/

namespace FunctionPipeline.Base64

def alphabet : List Char :=
  "ABCDEFGHIJKLMNOPQRSTUVWXYZabcdefghijklmnopqrstuvwxyz0123456789+/".toList

def digit? (c : Char) : Option Nat :=
  let n := c.toNat
  if 65 ≤ n ∧ n ≤ 90 then some (n - 65)
  else if 97 ≤ n ∧ n ≤ 122 then some (n - 71)
  else if 48 ≤ n ∧ n ≤ 57 then some (n + 4)
  else if n = 43 then some 62
  else if n = 47 then some 63
  else none

def digitChar (n : Nat) : Char := alphabet.getD n 'A'

/-- The text of octets, three by three, with padding. -/
def encode : List UInt8 → List Char
  | [] => []
  | [a] =>
      let n := a.toNat * 16
      [digitChar (n / 64), digitChar (n % 64), '=', '=']
  | [a, b] =>
      let n := (a.toNat * 256 + b.toNat) * 4
      [digitChar (n / 4096), digitChar (n / 64 % 64), digitChar (n % 64), '=']
  | a :: b :: c :: rest =>
      let n := (a.toNat * 256 + b.toNat) * 256 + c.toNat
      digitChar (n / 262144) :: digitChar (n / 4096 % 64) :: digitChar (n / 64 % 64) ::
        digitChar (n % 64) :: encode rest

/-- Reads on within a group of four digits: how many of them were read, the bits left over from
them, and how many padding characters came since. -/
def decodeFrom (read left pads : Nat) : List Char → Option (List UInt8)
  | [] => if read = 0 then some [] else none
  | c :: rest =>
      if c = '=' then
        if read ≥ 2 then
          if read + pads + 1 ≥ 4 then some [] else decodeFrom read left (pads + 1) rest
        else decodeFrom read left pads rest
      else
        match digit? c with
        | none => decodeFrom read left pads rest
        | some d =>
            match read with
            | 0 => decodeFrom 1 d 0 rest
            | 1 => (decodeFrom 2 (d % 16) 0 rest).map ((left * 4 + d / 16).toUInt8 :: ·)
            | 2 => (decodeFrom 3 (d % 4) 0 rest).map ((left * 16 + d / 4).toUInt8 :: ·)
            | _ => (decodeFrom 0 0 0 rest).map ((left * 64 + d).toUInt8 :: ·)

def decode? (s : List Char) : Option (List UInt8) := decodeFrom 0 0 0 s

end FunctionPipeline.Base64

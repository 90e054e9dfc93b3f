import FunctionPipeline.Text.Base64
import FunctionPipeline.Text.Pieces
import FunctionPipeline.Text.Quoted

/-!
The mappings of a source map: for each generated line, segments from a column on that come from a
place in a source. Fields are written as differences: the generated column to the segment before on
the line, the others to the last segment that has them, on any line.

The differences are base 64 numbers of variable length. Each digit has five bits of a number, the
lowest first, and a bit that says whether more follow; the lowest bit of a number is its sign.
-/

namespace FunctionPipeline

namespace Vlq

inductive Error where
  | badCharacter (c : Char)
  | truncated (segment : List Char)
  deriving DecidableEq, Repr

def Error.message : Error → String
  | .badCharacter c => "Invalid VLQ character: " ++ Quoted.text (String.singleton c)
  | .truncated segment => "Truncated VLQ segment: " ++ Quoted.text (String.ofList segment)

/-- The number whose magnitude stands above its sign bit. -/
def ofBits (bits : Nat) : Int :=
  let magnitude : Int := bits / 2
  if bits % 2 = 1 then -magnitude else magnitude

/-- Reads digits after `bits` of a number below the bit position `shift`. Nothing stands for a last
number without its end. -/
def digits (bits shift : Nat) : List Char → Except Char (Option (List Int))
  | [] => .ok (if shift = 0 then some [] else none)
  | c :: rest =>
      match Base64.digit? c with
      | none => .error c
      | some d =>
          let bits := bits + d % 32 * Nat.pow 2 shift
          if d ≥ 32 then digits bits (shift + 5) rest
          else do
            let others ← digits 0 0 rest
            return others.map (ofBits bits :: ·)

def decode (segment : List Char) : Except Error (List Int) :=
  match digits 0 0 segment with
  | .error c => .error (.badCharacter c)
  | .ok none => .error (.truncated segment)
  | .ok (some numbers) => .ok numbers

end Vlq

structure Origin where
  source : Int
  line : Int
  column : Int
  deriving DecidableEq, Repr, Inhabited

structure Segment where
  column : Int
  origin : Option Origin
  deriving DecidableEq, Repr, Inhabited

namespace Mappings

inductive Error where
  /-- A segment is no sequence of numbers. -/
  | segment (cause : Vlq.Error)
  /-- A segment without any number was looked into for its column. -/
  | noColumn
  deriving DecidableEq, Repr

def shift (a b : Origin) : Origin := ⟨a.source + b.source, a.line + b.line, a.column + b.column⟩

/-- The segments of a line in the order of the text, after a column and an origin, with the origin
after them. Empty pieces are no segments. -/
def segments (column : Int) (last : Origin) :
    List (List Char) → Except Error (List Segment × Origin)
  | [] => .ok ([], last)
  | piece :: rest =>
      if piece.isEmpty then segments column last rest
      else do
        match ← (Vlq.decode piece).mapError Error.segment with
        | [] => throw .noColumn
        | step :: source :: line :: place :: _ =>
            let here := shift last ⟨source, line, place⟩
            let (others, last) ← segments (column + step) here rest
            return (⟨column + step, some here⟩ :: others, last)
        | step :: _ =>
            let (others, last) ← segments (column + step) last rest
            return (⟨column + step, none⟩ :: others, last)

/-- Segments by their columns; those with the same column stay in order. -/
def inOrder (line : List Segment) : List Segment :=
  line.mergeSort fun a b => a.column ≤ b.column

def lines (last : Origin) : List (List Char) → Except Error (List (List Segment))
  | [] => .ok []
  | line :: rest => do
      let (found, last) ← segments 0 last (pieces ',' line)
      let others ← lines last rest
      return inOrder found :: others

def decode (mappings : List Char) : Except Error (List (List Segment)) :=
  lines ⟨0, 0, 0⟩ (pieces ';' mappings)

end Mappings

end FunctionPipeline

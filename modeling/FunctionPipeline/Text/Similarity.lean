/-!
How alike two texts are: the longest part that both have in common is matched, then what stands
before it in both and what stands after it in both.
-/

namespace FunctionPipeline.Similarity

def commonStart : List Char → List Char → Nat
  | a :: s, b :: t => if a = b then commonStart s t + 1 else 0
  | _, _ => 0

/-- A part that two texts have in common: where it starts in each of them, and its length. -/
structure Part where
  left : Nat
  right : Nat
  length : Nat
  deriving DecidableEq, Repr, Inhabited

/-- The longest common part; of equally long ones the first in the left text, and of those the
first in the right text. -/
def longestPart (s t : List Char) : Part :=
  let parts := (List.range s.length).flatMap fun i =>
    (List.range t.length).map fun j => (⟨i, j, commonStart (s.drop i) (t.drop j)⟩ : Part)
  parts.foldl (fun best part => if best.length < part.length then part else best) ⟨0, 0, 0⟩

/-- How many characters are matched, given a bound on the number of nested parts. -/
def matchedWithin : Nat → List Char → List Char → Nat
  | 0, _, _ => 0
  | depth + 1, s, t =>
      let part := longestPart s t
      if part.length = 0 then 0
      else
        matchedWithin depth (s.take part.left) (t.take part.right) + part.length +
          matchedWithin depth (s.drop (part.left + part.length))
            (t.drop (part.right + part.length))

/-- How many characters of a text are matched with ones of another. Every part that is matched
makes what is left of the text shorter. -/
def matched (s t : List Char) : Nat := matchedWithin (s.length + 1) s t

/-- A text with its likeness to another one: the matched characters of both, and all of them. -/
structure Candidate where
  text : String
  matched : Nat
  total : Nat
  deriving Repr, Inhabited

def candidate (word text : String) : Candidate :=
  ⟨text, 2 * matched text.toList word.toList, text.length + word.length⟩

/-- Whether three fifths of the characters are matched. -/
def Candidate.isClose (c : Candidate) : Bool := 3 * c.total ≤ 5 * c.matched

/-- Whether a candidate is at least as good as another one. The later name wins a tie. -/
def Candidate.beats (c other : Candidate) : Bool :=
  let mine := c.matched * other.total
  let theirs := other.matched * c.total
  theirs < mine || (theirs == mine && other.text ≤ c.text)

/-- The texts that are close to a word, in order of their names, and of more than three the three
best. -/
def closest (word : String) (texts : List String) : List String :=
  let close := (texts.map (candidate word)).filter Candidate.isClose
  (((close.mergeSort Candidate.beats).take 3).map Candidate.text).mergeSort

end FunctionPipeline.Similarity

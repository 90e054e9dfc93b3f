import FunctionPipeline.Text.CellWidth
import FunctionPipeline.Text.Pieces

/-!
Texts in lines of limited width. A line ends where the next word does not fit; a word that fits in
no line is cut.
-/

namespace FunctionPipeline.Layout

/-- How many columns apart the tab stops are. -/
def tabStop : Nat := 8

/-- A line with spaces in place of tabs, from a column on. -/
def withoutTabs (column : Nat) : List Char → List Char
  | [] => []
  | '\t' :: rest =>
      let width := tabStop - column % tabStop
      List.replicate width ' ' ++ withoutTabs (column + width) rest
  | c :: rest => c :: withoutTabs (column + cellWidth c) rest

/-- Cuts where a blank is followed by something else. -/
def grouped : List Char → List (List Char)
  | [] => []
  | c :: rest =>
      match grouped rest with
      | [] => [[c]]
      | group :: others =>
          if isBlank c && !(group.head?.map isBlank).getD false then [c] :: group :: others
          else (c :: group) :: others

/-- Words with the blanks after them. Blanks before the first word belong to it. -/
def words (s : List Char) : List (List Char) :=
  match grouped s with
  | first :: second :: others =>
      if first.all isBlank then (first ++ second) :: others else first :: second :: others
  | groups => groups

def withoutEnd (s : List Char) : List Char := (s.reverse.dropWhile isBlank).reverse

/-- A text in pieces of at most a width, after a line that takes some cells already. -/
def chopFrom (width : Nat) (line : List Char) (size : Nat) : List Char → List (List Char)
  | [] => [line]
  | c :: rest =>
      if size + cellWidth c > width then line :: chopFrom width [c] (cellWidth c) rest
      else chopFrom width (line ++ [c]) (size + cellWidth c) rest

/-- The lines that are full, the last one first, and the line that is being filled. -/
structure Lines where
  full : List (List Char) := []
  line : List Char := []

def Lines.startLine (l : Lines) (s : List Char) : Lines :=
  ⟨if l.line.isEmpty then l.full else l.line :: l.full, s⟩

def Lines.place (width : Nat) (l : Lines) (word : List Char) : Lines :=
  let size := cells (withoutEnd word)
  if cells l.line + size ≤ width then { l with line := l.line ++ word }
  else if size > width then (chopFrom width [] 0 word).foldl Lines.startLine l
  else l.startLine word

def Lines.toList (l : Lines) : List (List Char) := (l.line :: l.full).reverse

/-- A line without the blanks at its end that go beyond a width. -/
def trimmed (width : Nat) (line : List Char) : List Char :=
  let blanks := line.length - (withoutEnd line).length
  line.take (line.length - min blanks (line.length - width))

def wrapLine (width : Nat) (line : List Char) : List (List Char) :=
  let filled := (words (withoutTabs 0 line)).foldl (Lines.place width) {}
  filled.toList.map fun line => cropped width (trimmed width line)

def wrap (width : Nat) (s : List Char) : List (List Char) :=
  (pieces '\n' s).flatMap (wrapLine width)

/-- A text on one line, with an ellipsis if it takes more than a number of cells. -/
def shortTitle (width : Nat) (s : List Char) : List Char :=
  let title := withoutTabs 0 (s.map fun c => if c = '\n' then ' ' else c)
  if cells title > width then cropped (width - 1) title ++ ['…'] else title

def rule (width : Nat) (s : List Char) : List Char :=
  let title := shortTitle (width - 4) s
  let side := (width - cells title) / 2
  let line := List.replicate (side - 1) '─' ++ ' ' :: title ++ ' ' :: List.replicate (side + 1) '─'
  cropped width line

end FunctionPipeline.Layout

/-!
Texts cut at every occurrence of a character or at white space, texts without the white space at
their ends, and lists of texts put together.
-/

namespace FunctionPipeline

/-- The pieces between the occurrences of a separator; one more than there are separators. -/
def pieces (separator : Char) : List Char → List (List Char)
  | [] => [[]]
  | c :: rest =>
      if c = separator then [] :: pieces separator rest
      else
        match pieces separator rest with
        | [] => [[c]]
        | first :: others => (c :: first) :: others

def cutText (separator : Char) (s : String) : List String :=
  (pieces separator s.toList).map String.ofList

def joined (separator : String) : List String → String
  | [] => ""
  | [s] => s
  | s :: rest => s ++ separator ++ joined separator rest

/-- What follows a word, if a text starts with it. -/
def afterWord? (word : String) (s : List Char) : Option (List Char) :=
  if word.toList.isPrefixOf s then some (s.drop word.length) else none

/-- White space: the ASCII blanks and information separators, the next-line control and the
spaces and separators of the standard, but not the zero-width ones. -/
def isBlank (c : Char) : Bool :=
  let n := c.toNat
  (9 ≤ n && n ≤ 13) || (28 ≤ n && n ≤ 32) || n == 0x85 || n == 0xA0 || n == 0x1680 ||
    (0x2000 ≤ n && n ≤ 0x200A) || n == 0x2028 || n == 0x2029 || n == 0x202F || n == 0x205F ||
    n == 0x3000

def strip (s : List Char) : List Char :=
  ((s.dropWhile isBlank).reverse.dropWhile isBlank).reverse

def stripText (s : String) : String := String.ofList (strip s.toList)

def blankSeparated : List Char → List (List Char)
  | [] => []
  | c :: rest =>
      if isBlank c then blankSeparated rest
      else if (rest.head?.map isBlank).getD true then [c] :: blankSeparated rest
      else
        match blankSeparated rest with
        | [] => [[c]]
        | word :: words => (c :: word) :: words

def isBlankText (s : String) : Bool := s.toList.all isBlank

end FunctionPipeline

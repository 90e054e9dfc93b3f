import FunctionPipeline.Proofs.Tool.ReferenceScan
import Mathlib.Data.List.Infix

/-!
Lines of code with one reference each, or none. A line is put together from its parts: white space,
the words of the reference, what may stand between them, and the name between quotation marks. White
space may be left out wherever two parts are told apart without it.
-/

namespace FunctionPipeline.ModuleReference

structure Gap where
  text : List Char
  blank : ∀ c ∈ text, isBlank c = true
  oneLine : '\n' ∉ text

structure Plain where
  text : List Char
  unquoted : Unquoted text
  oneLine : '\n' ∉ text

structure Literal where
  mark : Char
  name : List Char
  isMark : isQuote mark = true
  nonempty : name ≠ []
  unquoted : Unquoted name
  oneLine : '\n' ∉ name

inductive Keyword where
  | imports
  | exports

def Keyword.word : Keyword → String
  | .imports => "import"
  | .exports => "export"

/-- What stands between that word and `from`. White space may be left out before a brace or an
asterisk, and behind what is no part of a word. -/
structure Clause where
  first : Char
  others : List Char
  opens : isBlank first = true ∨ first = '{' ∨ first = '*'
  closes : ∀ c ∈ (first :: others).getLast?, isWord c = false
  unquoted : Unquoted (first :: others)
  unended : ';' ∉ others
  oneLine : '\n' ∉ first :: others

inductive Line where
  /-- An import or a re-export with a clause. -/
  | withClause (indent : Gap) (keyword : Keyword) (clause : Clause) (gap : Gap) (literal : Literal)
      (rest : Plain)
  /-- An import for its effects. -/
  | effects (indent gap : Gap) (literal : Literal) (rest : Plain)
  /-- A call of `import`, which is no part of a longer word. -/
  | importCall (start : Plain) (gap : Gap) (literal : Literal) (close : Gap) (rest : Plain)
      (hstart : ∀ c ∈ start.text.getLast?, isWord c = false)
  /-- A call of `require`, with or without two underscores in front. -/
  | requireCall (start : Plain) (underscored : Bool) (gap : Gap) (literal : Literal) (close : Gap)
      (rest : Plain) (hstart : ∀ c ∈ start.text.getLast?, isCallee c = false)
  /-- No reference. -/
  | other (line : Plain)

def Literal.text (l : Literal) : List Char := l.mark :: (l.name ++ [l.mark])

def Clause.text (c : Clause) : List Char := c.first :: c.others

def Clause.statement (c : Clause) (keyword : Keyword) (gap : Gap) : List Char :=
  keyword.word.toList ++ (c.text ++ ("from".toList ++ gap.text))

def requireWord (underscored : Bool) : String := if underscored then "__require(" else "require("

namespace Line

/-- What stands in front of the name, or the whole line if there is none. -/
def opening : Line → List Char
  | .withClause indent keyword clause gap _ _ => indent.text ++ clause.statement keyword gap
  | .effects indent gap _ _ => indent.text ++ ("import".toList ++ gap.text)
  | .importCall start gap _ _ _ _ => start.text ++ ("import(".toList ++ gap.text)
  | .requireCall start underscored gap _ _ _ _ =>
      start.text ++ ((requireWord underscored).toList ++ gap.text)
  | .other line => line.text

def ending : Line → List Char
  | .withClause _ _ _ _ literal rest => literal.text ++ rest.text
  | .effects _ _ literal rest => literal.text ++ rest.text
  | .importCall _ _ literal close rest _ => literal.text ++ (close.text ++ ')' :: rest.text)
  | .requireCall _ _ _ literal close rest _ => literal.text ++ (close.text ++ ')' :: rest.text)
  | .other _ => []

def text (l : Line) : List Char := l.opening ++ l.ending

def name? : Line → Option (List Char)
  | .withClause _ _ _ _ literal _ => some literal.name
  | .effects _ _ literal _ => some literal.name
  | .importCall _ _ literal _ _ _ => some literal.name
  | .requireCall _ _ _ literal _ _ _ => some literal.name
  | .other _ => none

/-- Whether white space sets a clause off from the word in front of it. -/
def isSetOff : Line → Bool
  | .withClause _ _ clause _ _ _ => isBlank clause.first
  | _ => true

/-- A line without a reference does not start like one; and a name that is passed over has no
parenthesis in it. -/
def IsPlain : Line → Prop
  | .withClause _ _ clause _ literal _ => isBlank clause.first = true ∨ '(' ∉ literal.name
  | .other line => ¬ "import".toList <+: line.text.dropWhile isBlank ∧
      ¬ "export".toList <+: line.text.dropWhile isBlank
  | _ => True

instance : ∀ l : Line, Decidable l.IsPlain
  | .withClause _ _ clause _ literal _ =>
      inferInstanceAs (Decidable (isBlank clause.first = true ∨ '(' ∉ literal.name))
  | .other line => inferInstanceAs (Decidable (¬ "import".toList <+: line.text.dropWhile isBlank ∧
      ¬ "export".toList <+: line.text.dropWhile isBlank))
  | .effects .. | .importCall .. | .requireCall .. => isTrue trivial

def found? (l : Line) : Option (List Char) := if l.isSetOff then l.name? else none

end Line

section Parts

theorem Gap.unquoted (g : Gap) : Unquoted g.text :=
  fun c hc => not_isQuote_of_isBlank (g.blank c hc)

theorem Keyword.unquoted (k : Keyword) : Unquoted k.word.toList := by
  cases k <;> decide

theorem Keyword.oneLine (k : Keyword) : '\n' ∉ k.word.toList := by
  cases k <;> decide

theorem unquoted_requireWord (underscored : Bool) : Unquoted (requireWord underscored).toList := by
  cases underscored <;> decide

section Statement

variable (clause : Clause) (keyword : Keyword) (gap : Gap)

theorem Clause.unquoted_statement : Unquoted (clause.statement keyword gap) :=
  keyword.unquoted.append (clause.unquoted.append (unquoted_from.append gap.unquoted))

theorem Clause.statement_ne_nil : clause.statement keyword gap ≠ [] := by
  simp [statement, text]

theorem Clause.oneLine_statement : '\n' ∉ clause.statement keyword gap := by
  have hclause : '\n' ∉ clause.text := clause.oneLine
  have hfrom : '\n' ∉ "from".toList := by decide
  simp only [statement, List.mem_append, not_or]
  exact ⟨keyword.oneLine, hclause, hfrom, gap.oneLine⟩

theorem Clause.statement_endsWith : EndsWith "from" (clause.statement keyword gap) :=
  ⟨keyword.word.toList ++ clause.text, "from".toList ++ gap.text,
    (List.append_assoc _ _ _).symm, gap.text, gap.blank, rfl⟩

end Statement

theorem Line.unquoted_opening (l : Line) : Unquoted l.opening := by
  cases l with
  | withClause indent keyword clause gap literal rest =>
      exact indent.unquoted.append (clause.unquoted_statement keyword gap)
  | effects indent gap literal rest =>
      have hword : Unquoted "import".toList := by decide
      exact indent.unquoted.append (hword.append gap.unquoted)
  | importCall start gap literal close rest hstart =>
      have hword : Unquoted "import(".toList := by decide
      exact start.unquoted.append (hword.append gap.unquoted)
  | requireCall start underscored gap literal close rest hstart =>
      exact start.unquoted.append ((unquoted_requireWord underscored).append gap.unquoted)
  | other line => exact line.unquoted

theorem Literal.isMarked (l : Literal) (t : List Char) : IsMarked (l.text ++ t) :=
  isMarked_cons l.isMark

theorem Literal.quotedAfterBlanks? (l : Literal) (t : List Char) :
    quotedAfterBlanks? (l.text ++ t) = some (l.name, t) := by
  have hmark : isBlank l.mark = false := not_isBlank_of_isQuote l.isMark
  have htext : l.text ++ t = l.mark :: (l.name ++ l.mark :: t) := by simp [Literal.text]
  rw [htext, ModuleReference.quotedAfterBlanks?, List.dropWhile_cons_of_neg (by simp [hmark])]
  exact quoted?_literal l.isMark l.isMark l.unquoted l.nonempty

theorem Literal.argument? (gap close : Gap) (l : Literal) (t : List Char) :
    argument? (gap.text ++ (l.text ++ (close.text ++ ')' :: t))) = some (l.name, t) := by
  have hclose : (close.text ++ ')' :: t).dropWhile isBlank = ')' :: t := by
    rw [List.dropWhile_append_of_pos close.blank, List.dropWhile_cons_of_neg (by decide)]
  simp only [ModuleReference.argument?, quotedAfterBlanks?_append_blanks gap.blank,
    l.quotedAfterBlanks?, bind, Option.bind_some, hclose]

end Parts

section Below

/-- What follows a line: nothing, or lines that do not start with a quotation mark. -/
inductive IsBelow : List Char → Prop
  | done : IsBelow []
  | more {t : List Char} (h : quotedAfterBlanks? t = none) : IsBelow ('\n' :: t)

def below : List Char → List (List Char)
  | [] => []
  | _ :: t => scan (some '\n') 0 t

variable {t : List Char}

theorem IsBelow.head (h : IsBelow t) : ∀ c ∈ t.head?, c = '\n' := by
  cases h with
  | done => simp
  | more h => simp

theorem IsBelow.isBoundary (h : IsBelow t) : IsBoundary t := fun c hc => .inl (h.head c hc)

theorem IsBelow.quotedAfterBlanks? (h : IsBelow t) : quotedAfterBlanks? t = none := by
  cases h with
  | done => rfl
  | more h =>
      rw [ModuleReference.quotedAfterBlanks?, List.dropWhile_cons_of_pos (by decide)]
      exact h

/-- The end of a line begins no reference. -/
theorem scan_below {c : Char} (hc : c ≠ '\n') (ht : IsBelow t) : scan (some c) 0 t = below t := by
  cases ht with
  | done => rfl
  | @more t h =>
      have hnone := (IsBelow.more h).quotedAfterBlanks?
      have hhere : here? (some c) ('\n' :: t) = none := by
        apply here?_eq_none
        · exact fun hstart => absurd (hstart c rfl) hc
        · exact call_eq_none (some c) (s := []) (by decide) (IsBelow.more h).isBoundary
            fun _ _ _ => hnone
      rw [scan, hhere, below]

/-- The rest of a line begins no reference. -/
theorem scan_rest {c : Char} (hc : c ≠ '\n') (rest : Plain) (ht : IsBelow t) :
    scan (some c) 0 (rest.text ++ t) = below t := by
  obtain ⟨d, hd, hscan⟩ := scan_inLine hc rest.oneLine
    (callless_of_none rest.unquoted ht.isBoundary ht.quotedAfterBlanks?)
  rw [hscan, scan_below hd ht]

end Below

end FunctionPipeline.ModuleReference

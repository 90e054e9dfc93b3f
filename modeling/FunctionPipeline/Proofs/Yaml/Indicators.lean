import FunctionPipeline.Proofs.Yaml.Lexing

/-!
Tokens of one character: what a run does at a dash, a question mark, a colon or brackets, and at the
end of a document. Each rule says that the tokens from a place on are those from the next place on,
with the tokens of the character put in front.
-/

namespace FunctionPipeline.Yaml

namespace Lexer.Ends

variable {c : Cursor} {found found' f : List Token} {indent : Int} {indents indents' : List Int}
  {allowKey : Bool} {t : List Char}

theorem readable_cons {t : Token} (found : List Token)
    (h : ∀ cause, t ≠ .unreadable cause) : IsReadable (t :: found) := by
  intro cause heq
  exact h cause (Option.some.inj heq)

private theorem second_of_separates {ch : Char} (ht : separates t.head? = true)
    (hch : isSeparating ch = false) : t.head? ≠ some ch := by
  intro heq
  rw [heq, separates, hch] at ht
  cases ht

theorem length_next {ch : Char} (h : c.rest = ch :: t) :
    c.next.rest.length < c.rest.length := by
  rw [Cursor.rest_next, h]
  exact Nat.lt_succ_self _

theorem peeks {ch : Char} (h : c.rest = ch :: t) :
    c.peek = some ch ∧ c.peekAt 1 = t.head? := by
  rw [Cursor.peek, Cursor.peekAt, h]
  cases t <;> exact ⟨rfl, rfl⟩

/-- A dash begins an item, and its sequence if that is not open yet. -/
theorem dash (hopens : Opens .blockSequenceStart c.column found indent indents found' indents')
    (h : c.rest = '-' :: t) (ht : separates t.head? = true)
    (hends : Ends (bare c.next (.blockEntry :: found') c.column indents' true) f) :
    Ends (bare c found indent indents true) f := by
  have hmarker := Cursor.atMarker_of_not h (Or.inr (second_of_separates ht (by decide)))
  obtain ⟨hpeek, hnext⟩ := peeks h
  have hfetch : (bare c found indent indents true).fetch =
      (bare c found indent indents true).dash := by
    simp [fetch, bare, hpeek, hnext, hmarker, ht]
  have hdash : (bare c found indent indents true).dash =
      some (bare c.next (.blockEntry :: found') c.column indents' true) := by
    simp only [Lexer.dash, hopens.openHere]
    rfl
  exact .step (ready_bare_here h (by decide) (by decide) (by decide) hopens.le) (hfetch.trans hdash)
    (readable_cons _ (by simp)) (length_next h) hends

/-- A question mark begins a key, and its mapping if that is not open yet. -/
theorem question (hopens : Opens .blockMappingStart c.column found indent indents found' indents')
    (h : c.rest = '?' :: t) (ht : separates t.head? = true)
    (hends : Ends (bare c.next (.key :: found') c.column indents' true) f) :
    Ends (bare c found indent indents true) f := by
  have hmarker := Cursor.atMarker_of_not h (Or.inl (by decide))
  obtain ⟨hpeek, hnext⟩ := peeks h
  have hfetch : (bare c found indent indents true).fetch =
      (bare c found indent indents true).question := by
    simp [fetch, bare, hpeek, hnext, hmarker, ht]
  have hquestion : (bare c found indent indents true).question =
      some (bare c.next (.key :: found') c.column indents' true) := by
    simp only [Lexer.question, hopens.openHere]
    rfl
  exact .step (ready_bare_here h (by decide) (by decide) (by decide) hopens.le)
    (hfetch.trans hquestion) (readable_cons _ (by simp)) (length_next h) hends

/-- A colon on a line of its own, below its key. -/
theorem colon (h : c.rest = ':' :: t) (ht : separates t.head? = true)
    (hends : Ends (bare c.next (.value :: found) c.column indents true) f) :
    Ends (bare c found c.column indents true) f := by
  have hmarker := Cursor.atMarker_of_not h (Or.inl (by decide))
  obtain ⟨hpeek, hnext⟩ := peeks h
  have hfetch : (bare c found c.column indents true).fetch =
      (bare c found c.column indents true).colon := by
    simp [fetch, bare, hpeek, hnext, hmarker, ht]
  have hcolon : (bare c found c.column indents true).colon =
      some (bare c.next (.value :: found) c.column indents true) := by
    have hinner : Opens .blockMappingStart c.column found c.column indents found indents :=
      .inner found indents
    simp only [Lexer.colon, hinner.openHere]
    rfl
  exact .step (ready_bare_here h (by decide) (by decide) (by decide) (Int.le_refl _))
    (hfetch.trans hcolon) (readable_cons _ (by simp)) (length_next h) hends

/-- A bracket that is closed at once, at the end of a line; a key that may begin there ends with the
line. -/
private theorem brackets {left right : Char} {first last : Token} {k : Nat}
    (h : c.rest = left :: right :: '\n' :: t) (hk : k < c.column) (ht : Goes t)
    (hleft : isPrintable left = true ∧ left ≠ ' ' ∧ left ≠ '#' ∧ left ≠ '-' ∧ left ≠ '.')
    (hright : isPrintable right = true ∧ right ≠ ' ' ∧ right ≠ '#' ∧ right ≠ '-' ∧ right ≠ '.')
    (hopen : ∀ x : Lexer, x.cursor.atMarker = false → x.cursor.peek = some left →
      x.fetch = x.openBracket first)
    (hclose : ∀ x : Lexer, x.cursor.atMarker = false → x.cursor.peek = some right →
      x.fetch = x.closeBracket last)
    (hfirst : ∀ cause, first ≠ .unreadable cause) (hlast : ∀ cause, last ≠ .unreadable cause)
    (hends : ∀ index line, Ends (fresh t index line (last :: first :: found) k indents) f) :
    Ends (bare c found k indents allowKey) f := by
  have hnext := Cursor.next_printable h hleft.1
  have hinside : c.next.rest = right :: '\n' :: t := by rw [hnext]
  have hafter := Cursor.next_printable hinside hright.1
  have hrequired : ((k : Int) == c.column) = false := by simp; omega
  have hopened : (bare c found k indents allowKey).openBracket first =
      some ⟨c.next, first :: found, 1, k, indents, true,
        if allowKey then [(0, keyAt c found k)] else []⟩ := by
    rw [openBracket, saveKey_bare]
    rfl
  have hclosed : Lexer.closeBracket ⟨c.next, first :: found, 1, k, indents, true,
      if allowKey then [(0, keyAt c found k)] else []⟩ last =
      some ⟨c.next.next, last :: first :: found, 0, k, indents, false,
        if allowKey then [(0, keyAt c found k)] else []⟩ := by
    cases allowKey <;> rfl
  refine .step (ready_bare_here h hleft.1 hleft.2.1 hleft.2.2.1 (by omega))
    ((hopen _ (Cursor.atMarker_of_not h (Or.inl hleft.2.2.2)) (peeks h).1).trans hopened)
    (readable_cons _ hfirst) (length_next h) ?_
  refine .step (ready_here hinside hright.1 hright.2.1 hright.2.2.1 ?_ (Or.inl Nat.one_pos))
    ((hclose _ (Cursor.atMarker_of_not hinside (Or.inl hright.2.2.2)) (peeks hinside).1).trans
      hclosed)
    (readable_cons _ hlast) (length_next hinside) ?_
  · intro e he
    cases allowKey with
    | false => cases he
    | true =>
        cases List.mem_singleton.mp he
        simp [isStale, keyAt, hnext]
  · refine (hends _ _).of_ready (ready_newline (t := t) ?_ ht rfl ?_)
    · rw [hafter]
    · intro e he
      cases allowKey with
      | false => cases he
      | true =>
          cases List.mem_singleton.mp he
          refine ⟨hrequired, ?_⟩
          rw [hafter, hnext]
          exact Nat.le_refl _

/-- An empty sequence in brackets, at the end of a line. -/
theorem emptySequence {k : Nat} (h : c.rest = '[' :: ']' :: '\n' :: t) (hk : k < c.column)
    (ht : Goes t) (hends : ∀ index line,
      Ends (fresh t index line (.flowSequenceEnd :: .flowSequenceStart :: found) k indents) f) :
    Ends (bare c found k indents allowKey) f := by
  refine brackets h hk ht (by decide) (by decide) ?_ ?_ (by simp) (by simp) hends
  · intro x hmarker hpeek
    simp [fetch, hpeek, hmarker]
  · intro x hmarker hpeek
    simp [fetch, hpeek, hmarker]

/-- An empty mapping in braces, at the end of a line. -/
theorem emptyMapping {k : Nat} (h : c.rest = '\x7b' :: '\x7d' :: '\n' :: t) (hk : k < c.column)
    (ht : Goes t) (hends : ∀ index line,
      Ends (fresh t index line (.flowMappingEnd :: .flowMappingStart :: found) k indents) f) :
    Ends (bare c found k indents allowKey) f := by
  refine brackets h hk ht (by decide) (by decide) ?_ ?_ (by simp) (by simp) hends
  · intro x hmarker hpeek
    simp [fetch, hpeek, hmarker]
  · intro x hmarker hpeek
    simp [fetch, hpeek, hmarker]

/-- The end of the text ends the outermost block. -/
theorem finish (index line : Nat) (found : List Token) :
    Ends (fresh [] index line found 0 [-1]) (.blockEnd :: found) := by
  have hready : ready (fresh [] index line found 0 [-1]) =
      some (fresh [] index line found 0 [-1]) := by
    rw [fresh, ready_bare goes_nil]
    rfl
  exact .stop (z := bare ⟨[], index, line, 0⟩ (.blockEnd :: found) (-1) [] true) hready rfl rfl

/-- The line that closes a document ends the outermost block too. -/
theorem closing (index line : Nat) (found : List Token) :
    Ends (fresh "...\n".toList index line found 0 [-1]) (.documentEnd :: .blockEnd :: found) := by
  have hclosed : (fresh "...\n".toList index line found 0 [-1]).fetch =
      some (bare ⟨['\n'], index + 3, line, 3⟩ (.documentEnd :: .blockEnd :: found) (-1) []
        false) := rfl
  have hdots : "...\n".toList = '.' :: "..\n".toList := rfl
  refine .step (ready_bare_here hdots (by decide) (by decide) (by decide) (Int.le_refl _))
    hclosed (readable_cons _ (by simp)) (show 1 < 4 by decide) ?_
  have hready : ready (bare ⟨['\n'], index + 3, line, 3⟩ (.documentEnd :: .blockEnd :: found) (-1)
      [] false) =
        some (fresh [] (index + 4) (line + 1) (.documentEnd :: .blockEnd :: found) (-1) []) := by
    rw [ready_newline (t := []) rfl goes_nil rfl fun e he => by cases he]
    rw [fresh, ready_bare goes_nil]
    rfl
  exact .stop (z := fresh [] (index + 4) (line + 1) (.documentEnd :: .blockEnd :: found) (-1) [])
    hready rfl rfl

end Lexer.Ends

end FunctionPipeline.Yaml

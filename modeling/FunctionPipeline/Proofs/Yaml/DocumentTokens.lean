import FunctionPipeline.Proofs.Yaml.ScalarTokens
import FunctionPipeline.Proofs.Yaml.KeptDocuments

/-!
The tokens of a written document. They follow the document: a block has its start and end around the
tokens of its parts, but a sequence below a key on one line stands at the indentation of the key and
has neither.
-/

namespace FunctionPipeline.Yaml

def keyToken (key : Value) : Token :=
  textToken (if isSimpleKey (keyChars key) then .simpleKey else .block) (keyChars key)

mutual

/-- The tokens of a value; a sequence without an indentation of its own has no start and no end. -/
def valueTokens (indentless : Bool) : Value → List Token
  | .str s => [textToken .block s.toList]
  | .sequence _ [] => [.flowSequenceStart, .flowSequenceEnd]
  | .sequence _ items =>
      if indentless then itemTokens items
      else .blockSequenceStart :: itemTokens items ++ [.blockEnd]
  | .mapping _ [] => [.flowMappingStart, .flowMappingEnd]
  | .mapping _ entries => .blockMappingStart :: entryTokens entries ++ [.blockEnd]
  | v => [.scalar true (scalarWord v)]

def itemTokens : List Value → List Token
  | [] => []
  | x :: xs => .blockEntry :: valueTokens false x ++ itemTokens xs

def entryTokens : List (Value × Value) → List Token
  | [] => []
  | (k, v) :: es =>
      .key :: keyToken k :: .value :: valueTokens (isSimpleKey (keyChars k)) v ++ entryTokens es

end

theorem valueTokens_leaf {v : Value} (h : isLeaf v = true) (indentless : Bool) :
    valueTokens indentless v = [.scalar true (scalarWord v)] := by
  cases v <;> first | rfl | cases h

theorem outdented_char {ch : Char} (n : Nat) {t : List Char} (hch : isPrintable ch = true)
    (hspace : ch ≠ ' ') (hsign : ch ≠ '#') : Outdented n (List.replicate n ' ' ++ ch :: t) where
  spaces := by
    rw [List.takeWhile_append_of_pos (by simp)]
    simp [hspace]
  goes := goes_spaces n (goes_char hch hspace hsign)

namespace Lexer.Ends

variable {c : Cursor} {found found' f : List Token} {indent : Int} {indents indents' : List Int}
  {allowKey : Bool} {t : List Char}

/-- An indented line begins at its column. -/
theorem indented {index line m : Nat} (ht : Goes t)
    (hends : Ends (bare ⟨t, index + m, line, m⟩ found indent indents true) f) :
    Ends (fresh (List.replicate m ' ' ++ t) index line found indent indents) f := by
  apply spaces m rfl ht
  have hplace := Cursor.forward_printable (c := ⟨List.replicate m ' ' ++ t, index, line, 0⟩) rfl
    fun d hd => by
      rw [List.eq_of_mem_replicate hd]
      decide
  rw [List.length_replicate, Nat.zero_add] at hplace
  rw [hplace]
  exact hends

/-- One space before a text. -/
theorem space (h : c.rest = ' ' :: t) (ht : Goes t)
    (hends : Ends (bare ⟨t, c.index + 1, c.line, c.column + 1⟩ found indent indents allowKey) f) :
    Ends (bare c found indent indents allowKey) f := by
  apply spaces 1 h ht
  rw [Cursor.forward_one, Cursor.next_printable h (by decide)]
  exact hends

/-- A text after a space. -/
theorem text_inline {k column : Nat} {s : List Char} (hs : isKept .block (k + 2) s = true)
    (h : c.rest = ' ' :: (scalarLine (k + 2) column s ++ t)) (hk : k < c.column + 1)
    (ht : Outdented k t)
    (hends : ∀ index line, Ends (fresh t index line (textToken .block s :: found) k indents) f) :
    Ends (bare c found k indents allowKey) f := by
  obtain ⟨d, w, hw, hprintable, hspace, hsign⟩ := writeScalar_head .block s (k + 2) column
  obtain ⟨w, hw⟩ : ∃ w, scalarLine (k + 2) column s = d :: w := by
    unfold scalarLine
    simp only [hw]
    split <;> exact ⟨_, rfl⟩
  apply space h (by rw [hw]; exact goes_char hprintable hspace hsign)
  exact text_line hs rfl hk ht hends

/-- The next line. -/
private theorem newline {k : Nat} (h : c.rest = '\n' :: t) (ht : Goes t)
    (hends : ∀ index line, Ends (fresh t index line found k indents) f) :
    Ends (bare c found k indents allowKey) f :=
  (hends _ _).of_ready (ready_newline h ht rfl fun e he => by cases he)

/-- The next line, from its indentation on. -/
theorem nextLine {k m : Nat} (h : c.rest = '\n' :: (List.replicate m ' ' ++ t)) (ht : Goes t)
    (hends : ∀ index line, Ends (bare ⟨t, index, line, m⟩ found k indents true) f) :
    Ends (bare c found k indents allowKey) f :=
  newline h (goes_spaces m ht) fun _ line => indented ht (hends _ line)

end Lexer.Ends

open Lexer

/-- A value after an indicator in a block is read to its tokens, whatever comes less indented after
it. -/
def ReadsInline (k : Nat) (v : Value) : Prop :=
  ∀ {c : Cursor} {found f : List Token} {indents : List Int} {t : List Char},
    c.rest = writeInline k v ++ t → c.column = k + 1 → Outdented k t →
    (∀ index line,
      Ends (fresh t index line ((valueTokens false v).reverse ++ found) k indents) f) →
    Ends (bare c found k indents true) f

def ReadsBelow (k : Nat) (v : Value) : Prop :=
  ∀ {c : Cursor} {found f : List Token} {indents : List Int} {t : List Char},
    c.rest = writeBelow k c.column v ++ t → k < c.column → Outdented k t →
    (∀ index line,
      Ends (fresh t index line ((valueTokens true v).reverse ++ found) k indents) f) →
    Ends (bare c found k indents false) f

def ReadsAfter (k : Nat) (key v : Value) : Prop :=
  if isSimpleKey (keyChars key) then ReadsBelow k v else ReadsInline k v

/-- A sequence in a block is read item by item. -/
theorem reads_items {items : List Value} (hnonempty : items ≠ []) {c : Cursor}
    (hitems : ∀ x ∈ items, ReadsInline c.column x) {found found' f : List Token}
    {indent : Int} {indents indents' : List Int} {t : List Char}
    (hopens : Opens .blockSequenceStart c.column found indent indents found' indents')
    (h : c.rest = stack c.column (writeItems c.column items) ++ t) (ht : Outdented c.column t)
    (hends : ∀ index line,
      Ends (fresh t index line ((itemTokens items).reverse ++ found') c.column indents') f) :
    Ends (bare c found indent indents true) f := by
  induction items generalizing c found found' indent indents indents' with
  | nil => exact absurd rfl hnonempty
  | cons x items ih =>
      have hfirst : ReadsInline c.column x := hitems x (by simp)
      obtain ⟨w, hw⟩ := writeInline_head c.column x
      cases items with
      | nil =>
          have hdash : c.rest = '-' :: (writeInline c.column x ++ t) := h
          have hnext := Cursor.next_printable hdash (by decide)
          apply Ends.dash hopens hdash (by rw [hw]; rfl)
          apply hfirst (by rw [hnext]) (by rw [hnext]) ht
          intro index line
          simpa [itemTokens] using hends index line
      | cons y items =>
          have hdash : c.rest = '-' :: (writeInline c.column x ++ (List.replicate c.column ' ' ++
              (stack c.column (writeItems c.column (y :: items)) ++ t))) := by
            rw [h]
            simp [writeItems, stack]
          have hnext := Cursor.next_printable hdash (by decide)
          obtain ⟨others, hothers⟩ := stack_items_head c.column y items
          have hout : Outdented c.column (List.replicate c.column ' ' ++
              (stack c.column (writeItems c.column (y :: items)) ++ t)) := by
            rw [hothers]
            exact outdented_char _ (by decide) (by decide) (by decide)
          apply Ends.dash hopens hdash (by rw [hw]; rfl)
          apply hfirst (by rw [hnext]) (by rw [hnext]) hout
          intro index line
          refine Ends.indented
            (by rw [hothers]; exact goes_char (by decide) (by decide) (by decide)) ?_
          -- the block is open by now, so the other items do not open it again
          refine ih (c := ⟨_, index + c.column, line, c.column⟩) (by simp)
            (fun z hz => hitems z (by simp [hz])) (.inner _ _) rfl ht fun index line => ?_
          simpa [itemTokens] using hends index line

/-- An entry of a mapping is read to the tokens of its key and value. -/
theorem reads_entry {s : String} {v : Value} {c : Cursor}
    (hs : isKeptKey (c.column + 2) s.toList = true) (hvalue : ReadsAfter c.column (.str s) v)
    {found found' f : List Token} {indent : Int} {indents indents' : List Int} {t : List Char}
    (hopens : Opens .blockMappingStart c.column found indent indents found' indents')
    (h : c.rest = entryText c.column (.str s) v ++ t) (ht : Outdented c.column t)
    (hends : ∀ index line, Ends (fresh t index line
      ((entryTokens [(.str s, v)]).reverse ++ found') c.column indents') f) :
    Ends (bare c found indent indents true) f := by
  have hchars : keyChars (.str s) = s.toList := rfl
  unfold entryText keyText at h
  rw [hchars] at h
  rw [ReadsAfter, hchars] at hvalue
  by_cases hsimple : isSimpleKey s.toList = true
  · simp only [if_pos hsimple] at h
    rw [isKeptKey, if_pos hsimple, decide_eq_true_eq] at hs
    have hbelow : ReadsBelow c.column v := by rwa [if_pos hsimple] at hvalue
    have hcolon : isPrintable ':' = true := by decide
    have hprintable : ∀ d ∈ writeScalar .simpleKey (c.column + 2) c.column s.toList ++ [':'],
        isPrintable d = true :=
      List.forall_mem_append.mpr ⟨printable_simpleKey s.toList c.column, by simpa using hcolon⟩
    rw [List.append_assoc] at h
    have hplace := Cursor.forward_printable h hprintable
    rw [List.append_assoc] at h
    rw [List.length_append, List.length_singleton] at h hplace
    have htoken : keyToken (.str s) = textToken .simpleKey s.toList := by
      rw [keyToken, hchars, if_pos hsimple]
    apply Ends.simpleKey hs hopens h (separates_writeBelow _ _ _ _)
    apply hbelow (by rw [hplace]) (by rw [hplace]; simp only; omega) ht
    intro index line
    simpa [entryTokens, htoken, hchars, hsimple] using hends index line
  · simp only [if_neg hsimple] at h
    rw [isKeptKey, if_neg hsimple] at hs
    have hinline : ReadsInline c.column v := by rwa [if_neg hsimple] at hvalue
    have hquestion : c.rest = '?' :: ' ' :: (scalarLine (c.column + 2) (c.column + 2) s.toList ++
        (List.replicate c.column ' ' ++ (':' :: (writeInline c.column v ++ t)))) := by
      rw [h]
      simp
    have hnext := Cursor.next_printable hquestion (by decide)
    have htoken : keyToken (.str s) = textToken .block s.toList := by
      rw [keyToken, hchars, if_neg hsimple]
    obtain ⟨w, hw⟩ := writeInline_head c.column v
    apply Ends.question hopens hquestion rfl
    refine Ends.text_inline hs (by rw [hnext]) (by rw [hnext]; simp only; omega)
      (outdented_char c.column (by decide) (by decide) (by decide)) fun index line => ?_
    apply Ends.indented (goes_char (by decide) (by decide) (by decide))
    refine Ends.colon (c := ⟨_, index + c.column, line, c.column⟩) rfl (by rw [hw]; rfl) ?_
    refine hinline (by rw [Cursor.next_printable rfl (by decide)])
      (by rw [Cursor.next_printable rfl (by decide)]) ht fun index line => ?_
    simpa [entryTokens, htoken, hchars, hsimple] using hends index line

/-- A mapping in a block is read entry by entry. -/
theorem reads_entries {entries : Entries} (hnonempty : entries ≠ []) {c : Cursor}
    (hkeys : HasKeptKeys c.column entries)
    (hvalues : ∀ e ∈ entries, ReadsAfter c.column e.1 e.2)
    {found found' f : List Token} {indent : Int} {indents indents' : List Int} {t : List Char}
    (hopens : Opens .blockMappingStart c.column found indent indents found' indents')
    (h : c.rest = stack c.column (writeEntries c.column entries) ++ t) (ht : Outdented c.column t)
    (hends : ∀ index line,
      Ends (fresh t index line ((entryTokens entries).reverse ++ found') c.column indents') f) :
    Ends (bare c found indent indents true) f := by
  induction entries generalizing c found found' indent indents indents' with
  | nil => exact absurd rfl hnonempty
  | cons e entries ih =>
      obtain ⟨key, v⟩ := e
      obtain ⟨s, hkey, hs⟩ := hkeys (key, v) (by simp)
      cases hkey
      have hvalue : ReadsAfter c.column (.str s) v := hvalues (.str s, v) (by simp)
      cases entries with
      | nil => exact reads_entry hs hvalue hopens h ht hends
      | cons e entries =>
          obtain ⟨d, others, hothers, hprintable, hspace, hsign⟩ :=
            @stack_entries_head (e :: entries) (by simp) c.column
          have hentry : c.rest = entryText c.column (.str s) v ++ (List.replicate c.column ' ' ++
              (stack c.column (writeEntries c.column (e :: entries)) ++ t)) := by
            obtain ⟨key, w⟩ := e
            rw [h]
            simp [writeEntries_cons, stack]
          refine reads_entry hs hvalue hopens hentry
            (by rw [hothers]; exact outdented_char _ hprintable hspace hsign)
            fun index line => ?_
          apply Ends.indented (by rw [hothers]; exact goes_char hprintable hspace hsign)
          refine ih (c := ⟨_, index + c.column, line, c.column⟩) (by simp)
            (fun e' he => hkeys e' (by simp [List.mem_cons.mp he]))
            (fun e he => hvalues e (by simp [List.mem_cons.mp he])) (.inner _ _)
            rfl ht fun index line => ?_
          simpa [entryTokens] using hends index line

namespace Lexer.Ends

variable {c : Cursor} {found f : List Token} {indents : List Int} {allowKey : Bool} {t : List Char}
  {k : Nat}

/-- A plain word after a space. -/
private theorem word_inline {s : List Char} (hs : Plain.IsUnbroken s)
    (hlead : Analysis.leadsWithIndicator s = false) (h : c.rest = ' ' :: (s ++ '\n' :: t))
    (hk : k < c.column + 1) (ht : Outdented k t)
    (hends : ∀ index line, Ends (fresh t index line (.scalar true s :: found) k indents) f) :
    Ends (bare c found k indents allowKey) f := by
  have hgoes : Goes (s ++ '\n' :: t) := by
    obtain ⟨d, s, rfl⟩ := List.exists_cons_of_ne_nil hs.nonempty
    obtain ⟨hspace, hsign⟩ := hs.head d rfl
    exact goes_char (hs.printable d (by simp)) hspace hsign
  have hline : s ++ '\n' :: t = Plain.write false (k + 2) 0 s ++ '\n' :: t := by
    rw [Plain.write_line]
  exact space h hgoes (plain_line hs hlead hline hk ht hends)

theorem emptySequence_inline (h : c.rest = ' ' :: '[' :: ']' :: '\n' :: t) (hk : k < c.column + 1)
    (ht : Goes t) (hends : ∀ index line,
      Ends (fresh t index line (.flowSequenceEnd :: .flowSequenceStart :: found) k indents) f) :
    Ends (bare c found k indents allowKey) f :=
  space h (goes_char (by decide) (by decide) (by decide)) (emptySequence rfl hk ht hends)

theorem emptyMapping_inline (h : c.rest = ' ' :: '\x7b' :: '\x7d' :: '\n' :: t)
    (hk : k < c.column + 1) (ht : Goes t) (hends : ∀ index line,
      Ends (fresh t index line (.flowMappingEnd :: .flowMappingStart :: found) k indents) f) :
    Ends (bare c found k indents allowKey) f :=
  space h (goes_char (by decide) (by decide) (by decide)) (emptyMapping rfl hk ht hends)

/-- After the lines of a block at the next indentation the block ends. -/
private theorem blockEnd {index line : Nat} (ht : Outdented k t)
    (hends : Ends (fresh t index line (.blockEnd :: found) k indents) f) :
    Ends (fresh t index line found (k + 2 : Nat) (k :: indents)) f := by
  refine outdent ht.goes ?_ hends
  have hspaces := ht.spaces
  omega

end Lexer.Ends

theorem reads_emptyList (k : Nat) : ReadsInline k (.list []) ∧ ReadsBelow k (.list []) := by
  constructor
  · intro c found f indents t hrest hcolumn ht hends
    exact Ends.emptySequence_inline hrest (by omega) ht.goes hends
  · intro c found f indents t hrest hcolumn ht hends
    exact Ends.emptySequence_inline hrest (by omega) ht.goes hends

theorem reads_emptyObject (k : Nat) : ReadsInline k (.object []) ∧ ReadsBelow k (.object []) := by
  constructor
  · intro c found f indents t hrest hcolumn ht hends
    exact Ends.emptyMapping_inline hrest (by omega) ht.goes hends
  · intro c found f indents t hrest hcolumn ht hends
    exact Ends.emptyMapping_inline hrest (by omega) ht.goes hends

private theorem goes_items (k : Nat) (x : Value) (xs : List Value) (t : List Char) :
    Goes (stack k (writeItems k (x :: xs)) ++ t) := by
  obtain ⟨w, hw⟩ := stack_items_head k x xs
  rw [hw]
  exact goes_char (by decide) (by decide) (by decide)

private theorem goes_entries (k : Nat) (e : Value × Value) (es : Entries) (t : List Char) :
    Goes (stack k (writeEntries k (e :: es)) ++ t) := by
  obtain ⟨d, w, hw, hd, hspace, hsign⟩ := @stack_entries_head (e :: es) (by simp) k
  rw [hw]
  exact goes_char hd hspace hsign

/-- A sequence on the line of its indicator is a block two columns further. -/
theorem readsInline_list {k : Nat} {x : Value} {xs : List Value}
    (hitems : ∀ y ∈ x :: xs, ReadsInline (k + 2) y) : ReadsInline k (.list (x :: xs)) := by
  intro c found f indents t hrest hcolumn ht hends
  apply Ends.space hrest (goes_items (k + 2) x xs t)
  rw [hcolumn]
  refine reads_items (c := ⟨_, _, _, k + 2⟩) (by simp) hitems
    (.outer _ _ (by simp only; omega)) rfl (ht.mono (by simp only; omega)) fun index line => ?_
  exact Ends.blockEnd ht (by simpa [valueTokens] using hends index line)

/-- A sequence below a key stands at the indentation of the key. -/
theorem readsBelow_list {k : Nat} {x : Value} {xs : List Value}
    (hitems : ∀ y ∈ x :: xs, ReadsInline k y) : ReadsBelow k (.list (x :: xs)) := by
  intro c found f indents t hrest hcolumn ht hends
  have hline : c.rest =
      '\n' :: (List.replicate k ' ' ++ (stack k (writeItems k (x :: xs)) ++ t)) := by
    rw [hrest]
    simp [writeBelow, newLine]
  apply Ends.nextLine hline (goes_items k x xs t)
  intro index line
  refine reads_items (c := ⟨_, index, line, k⟩) (by simp) hitems (.inner _ _) rfl ht
    fun index line => ?_
  simpa [valueTokens] using hends index line

/-- A mapping is a block two columns further wherever it stands. -/
theorem reads_object {k : Nat} {e : Value × Value} {es : Entries}
    (hkeys : HasKeptKeys (k + 2) (e :: es))
    (hvalues : ∀ e' ∈ e :: es, ReadsAfter (k + 2) e'.1 e'.2) :
    ReadsInline k (.object (e :: es)) ∧ ReadsBelow k (.object (e :: es)) := by
  constructor
  · intro c found f indents t hrest hcolumn ht hends
    apply Ends.space hrest (goes_entries (k + 2) e es t)
    rw [hcolumn]
    refine reads_entries (c := ⟨_, _, _, k + 2⟩) (by simp) hkeys hvalues
      (.outer _ _ (by simp only; omega)) rfl (ht.mono (by simp only; omega)) fun index line => ?_
    exact Ends.blockEnd ht (by simpa [valueTokens] using hends index line)
  · intro c found f indents t hrest hcolumn ht hends
    have hline : c.rest = '\n' :: (List.replicate (k + 2) ' ' ++
        (stack (k + 2) (writeEntries (k + 2) (e :: es)) ++ t)) := by
      rw [hrest]
      simp [writeBelow, newLine]
    apply Ends.nextLine hline (goes_entries (k + 2) e es t)
    intro index line
    refine reads_entries (c := ⟨_, index, line, k + 2⟩) (by simp) hkeys hvalues
      (.outer _ _ (by simp only; omega)) rfl (ht.mono (by simp only; omega)) fun index line => ?_
    exact Ends.blockEnd ht (by simpa [valueTokens] using hends index line)

/-- Every document whose texts are kept is read to its tokens where it stands. -/
theorem IsKeptDocument.reads {below : Bool} {indent : Nat} {v : Value}
    (h : IsKeptDocument below indent v) :
    ∀ k, indent = k + 2 → if below then ReadsBelow k v else ReadsInline k v := by
  induction h with
  | @text below indent s hs =>
      rintro k rfl
      cases below with
      | false =>
          intro c found f indents t hrest hcolumn ht hends
          exact Ends.text_inline hs hrest (by omega) ht hends
      | true =>
          intro c found f indents t hrest hcolumn ht hends
          exact Ends.text_inline hs hrest (by omega) ht hends
  | @word below indent v hv =>
      rintro k rfl
      cases below with
      | false =>
          intro c found f indents t hrest hcolumn ht hends
          rw [writeInline_leaf hv.leaf] at hrest
          rw [valueTokens_leaf hv.leaf] at hends
          exact Ends.word_inline hv.unbroken hv.lead (by simpa using hrest) (by omega) ht hends
      | true =>
          intro c found f indents t hrest hcolumn ht hends
          rw [writeBelow_leaf hv.leaf] at hrest
          rw [valueTokens_leaf hv.leaf] at hends
          exact Ends.word_inline hv.unbroken hv.lead (by simpa using hrest) (by omega) ht hends
  | @list below indent items hitems ih =>
      rintro k rfl
      cases items with
      | nil =>
          cases below
          · exact (reads_emptyList k).1
          · exact (reads_emptyList k).2
      | cons x xs =>
          cases below with
          | false => exact readsInline_list fun y hy => ih y hy (k + 2) rfl
          | true => exact readsBelow_list fun y hy => ih y hy k rfl
  | @object below indent entries hkeys htexts hentries ih =>
      rintro k rfl
      cases entries with
      | nil =>
          cases below
          · exact (reads_emptyObject k).1
          · exact (reads_emptyObject k).2
      | cons e es =>
          obtain ⟨hinline, hbelow⟩ := reads_object htexts fun e' he => ih e' he (k + 2) rfl
          cases below
          · exact hinline
          · exact hbelow

private theorem isAllowed_of_lined {w : List Char} (h : IsLined w) : w.all isAllowed = true := by
  rw [List.all_eq_true]
  intro c hc
  rcases h c hc with hbreak | hprintable
  · rcases isKeptBreak_iff.mp hbreak with rfl | rfl | rfl <;> decide
  · exact isAllowed_of_isPrintable hprintable

def closingLine (v : Value) : List Char := if needsClosing v then "...\n".toList else []

/-- The tokens of a written mapping. A line that closes the document is the last one. -/
theorem tokens_write {entries : Entries} (hnonempty : entries ≠ [])
    (h : IsKeptDocument false 0 (.object entries)) :
    tokens? (write (.object entries)) = some (.blockMappingStart :: entryTokens entries ++
      .blockEnd :: if needsClosing (.object entries) then [.documentEnd] else []) := by
  cases h with
  | word hv => cases hv.leaf
  | object hkeys htexts hentries =>
    have hwrite : write (.object entries) =
        stack 0 (writeEntries 0 entries) ++ closingLine (.object entries) := by
      obtain ⟨e, es, rfl⟩ := List.exists_cons_of_ne_nil hnonempty
      rfl
    obtain ⟨d, w, hw, hprintable, -, -⟩ := stack_entries_head hnonempty 0
    have hclosing : IsLined (closingLine (.object entries)) := by
      unfold closingLine
      split
      · exact isLined_of_all (by decide)
      · exact isLined_nil
    have hlined : IsLined (write (.object entries)) := by
      rw [hwrite]
      exact (isLined_stack (isLined_writeEntries htexts
        (fun e he indent => (hentries e he).isLined indent) 0)).append hclosing
    have hout : Outdented 0 (closingLine (.object entries)) := by
      unfold closingLine
      split
      · exact outdented_char 0 (by decide) (by decide) (by decide)
      · exact ⟨by simp, goes_nil⟩
    obtain ⟨f, hf⟩ : ∃ f : List Token, f = (if needsClosing (.object entries) then [.documentEnd]
        else []) ++ .blockEnd :: (entryTokens entries).reverse ++ [.blockMappingStart] := ⟨_, rfl⟩
    have hends : Ends (bare ⟨write (.object entries), 0, 0, 0⟩ [] (-1) [] true) f := by
      refine reads_entries (c := ⟨write (.object entries), 0, 0, 0⟩) hnonempty htexts
        (fun e he => (hentries e he).reads 0 rfl)
        (.outer [] [] (show (-1 : Int) < 0 by decide)) hwrite hout fun index line => ?_
      unfold closingLine
      rw [hf]
      split
      · exact Ends.closing index line _
      · exact Ends.finish index line _
    have hpeek : (Lexer.start (write (.object entries))).cursor.peek ≠ some byteOrderMark := by
      change (write (.object entries)).head? ≠ _
      rw [hwrite, hw]
      intro heq
      cases heq
      cases hprintable
    obtain ⟨z, hrun, hfound⟩ := hends.run ((write (.object entries)).length + 2)
      (by simp only [bare]; omega)
    have hrun' : Lexer.run ((write (.object entries)).length + 2)
        (Lexer.start (write (.object entries))) = some z := hrun
    simp only [tokens?, isAllowed_of_lined hlined, Bool.not_true, Bool.false_eq_true, if_false,
      if_neg hpeek, hrun', Option.bind_eq_bind, Option.bind_some, Option.pure_def, hfound, hf]
    split <;> simp

end FunctionPipeline.Yaml

import FunctionPipeline.Yaml.Content
import FunctionPipeline.Proofs.Yaml.WrittenText

/-!
The documents that are written and read back: trees of texts and words in mappings and sequences, in
which every text is kept where it stands. Their text is made of printable lines, and every part of
it begins with a character that is neither passed nor begins a comment.
-/

namespace FunctionPipeline.Yaml

/-- Whether a key of a mapping is kept. On one line it must not be longer than the reader goes back
to the beginning of a key from its colon. -/
def isKeptKey (indent : Nat) (s : List Char) : Bool :=
  if isSimpleKey s then (writeScalar .simpleKey 0 0 s).length ≤ 1024 else isKept .block indent s

/-- Values that are written as one word: neither texts nor containers. -/
def isLeaf : Value → Bool
  | .str _ | .sequence .. | .mapping .. => false
  | _ => true

/-- A value whose word is a plain scalar that has the value by its form. -/
structure IsWord (v : Value) : Prop where
  leaf : isLeaf v = true
  unbroken : Plain.IsUnbroken (scalarWord v)
  lead : Analysis.leadsWithIndicator (scalarWord v) = false
  build : ∀ number, (Node.scalar none (Plain.tag (scalarWord v)) number (scalarWord v)).build =
    .pure v

/-- Documents whose texts are kept, at the indentation of the lines that a value goes on with. The
items of a sequence below a key on one line stand at the indentation of the key. -/
inductive IsKeptDocument : Bool → Nat → Value → Prop where
  | text {below : Bool} {indent : Nat} {s : String} (hs : isKept .block indent s.toList = true) :
      IsKeptDocument below indent (.str s)
  | word {below : Bool} {indent : Nat} {v : Value} (hv : IsWord v) : IsKeptDocument below indent v
  | list {below : Bool} {indent : Nat} {items : List Value}
      (hitems : ∀ x ∈ items, IsKeptDocument false (if below then indent else indent + 2) x) :
      IsKeptDocument below indent (.list items)
  | object {below : Bool} {indent : Nat} {entries : Entries}
      (hkeys : (Entries.keys entries).Nodup)
      (htexts : ∀ e ∈ entries, ∃ s, e.1 = .str s ∧ isKeptKey (indent + 2) s.toList = true)
      (hentries : ∀ e ∈ entries,
        IsKeptDocument (isSimpleKey (keyChars e.1)) (indent + 2) e.2) :
      IsKeptDocument below indent (.object entries)

def HasKeptKeys (indent : Nat) (entries : Entries) : Prop :=
  ∀ e ∈ entries, ∃ s, e.1 = .str s ∧ isKeptKey (indent + 2) s.toList = true

theorem writeInline_leaf {v : Value} (h : isLeaf v = true) (k : Nat) :
    writeInline k v = ' ' :: scalarWord v ++ ['\n'] := by
  cases v <;> first | rfl | cases h

theorem writeBelow_leaf {v : Value} (h : isLeaf v = true) (k column : Nat) :
    writeBelow k column v = ' ' :: scalarWord v ++ ['\n'] := by
  cases v <;> first | rfl | cases h

theorem writeInline_head (k : Nat) (v : Value) : ∃ w, writeInline k v = ' ' :: w := by
  cases v with
  | sequence access items => cases items <;> exact ⟨_, rfl⟩
  | mapping access entries => cases entries <;> exact ⟨_, rfl⟩
  | _ => exact ⟨_, rfl⟩

theorem separates_writeBelow (k column : Nat) (v : Value) (t : List Char) :
    separates (writeBelow k column v ++ t).head? = true := by
  cases v with
  | sequence access items => cases items <;> rfl
  | mapping access entries => cases entries <;> rfl
  | _ => rfl

theorem stack_items_head (indent : Nat) (x : Value) (xs : List Value) :
    ∃ w, stack indent (writeItems indent (x :: xs)) = '-' :: w := by
  cases xs <;> exact ⟨_, rfl⟩

def entryText (indent : Nat) (k v : Value) : List Char :=
  keyText indent (keyChars k) ++
    if isSimpleKey (keyChars k) then
      writeBelow indent (indent + (keyText indent (keyChars k)).length) v
    else writeInline indent v

theorem writeEntries_cons (indent : Nat) (k v : Value) (es : Entries) :
    writeEntries indent ((k, v) :: es) = entryText indent k v :: writeEntries indent es := rfl

theorem entryText_head (key : Value) (indent : Nat) (v : Value) :
    ∃ d w, entryText indent key v = d :: w ∧ isPrintable d = true ∧ d ≠ ' ' ∧ d ≠ '#' := by
  unfold entryText keyText
  by_cases hsimple : isSimpleKey (keyChars key) = true
  · obtain ⟨d, w, hw, hd⟩ := writeScalar_head .simpleKey (keyChars key) (indent + 2) indent
    rw [if_pos hsimple, hw]
    exact ⟨d, _, rfl, hd⟩
  · rw [if_neg hsimple]
    exact ⟨'?', _, rfl, by decide⟩

theorem stack_entries_head {entries : Entries} (hnonempty : entries ≠ []) (indent : Nat) :
    ∃ d w, stack indent (writeEntries indent entries) = d :: w ∧ isPrintable d = true ∧ d ≠ ' ' ∧
      d ≠ '#' := by
  obtain ⟨⟨key, v⟩, entries, rfl⟩ := List.exists_cons_of_ne_nil hnonempty
  obtain ⟨d, w, hw, hd⟩ := entryText_head key indent v
  rw [writeEntries_cons, hw]
  cases entries <;> exact ⟨d, _, rfl, hd⟩

theorem isLined_stack {indent : Nat} {blocks : List (List Char)} (h : ∀ b ∈ blocks, IsLined b) :
    IsLined (stack indent blocks) := by
  induction blocks with
  | nil => exact fun c hc => by cases hc
  | cons b blocks ih =>
      cases blocks with
      | nil => exact h b (by simp)
      | cons d blocks =>
          exact ((h b (by simp)).append (isLined_spaces indent)).append
            (ih fun e he => h e (by simp [List.mem_cons.mp he]))

theorem isLined_scalarLine {k : Nat} {s : List Char} (hs : isKept .block k s = true)
    (indent column : Nat) : IsLined (scalarLine indent column s) := by
  have hwritten : IsLined (writeScalar .block indent column s) := isLined_writeScalar hs column
  unfold scalarLine
  simp only
  split
  · exact hwritten
  · exact hwritten.append (isLined_nil.cons (Or.inl (by decide)))

theorem isLined_keyText {k : Nat} {s : List Char} (hs : isKeptKey k s = true) (indent : Nat) :
    IsLined (keyText indent s) := by
  have hcolon : IsLined [':'] := isLined_nil.cons (Or.inr (by decide))
  unfold keyText
  split
  · exact (isLined_of_printable (printable_simpleKey s indent)).append hcolon
  · next hsimple =>
      rw [isKeptKey, if_neg hsimple] at hs
      exact ((((isLined_scalarLine hs _ _).append (isLined_spaces indent)).append hcolon).cons
        (Or.inr (by decide))).cons (Or.inr (by decide))

theorem isLined_writeItems {items : List Value}
    (h : ∀ x ∈ items, ∀ indent, IsLined (writeInline indent x)) (indent : Nat) :
    ∀ b ∈ writeItems indent items, IsLined b := by
  induction items with
  | nil => exact fun b hb => by cases hb
  | cons x items ih =>
      intro b hb
      rcases List.mem_cons.mp hb with rfl | hmem
      · exact (h x (by simp) indent).cons (Or.inr (by decide))
      · exact ih (fun y hy => h y (by simp [hy])) b hmem

theorem isLined_writeEntries {k : Nat} {entries : Entries} (hkeys : HasKeptKeys k entries)
    (h : ∀ e ∈ entries, ∀ indent, IsLined (writeInline indent e.2) ∧
      ∀ column, IsLined (writeBelow indent column e.2)) (indent : Nat) :
    ∀ b ∈ writeEntries indent entries, IsLined b := by
  induction entries with
  | nil => exact fun b hb => by cases hb
  | cons e entries ih =>
      obtain ⟨key, v⟩ := e
      obtain ⟨s, hkey, hs⟩ := hkeys (key, v) (by simp)
      cases hkey
      obtain ⟨hinline, hbelow⟩ := h (.str s, v) (by simp) indent
      intro b hb
      rcases List.mem_cons.mp hb with rfl | hmem
      · apply (isLined_keyText hs indent).append
        split
        · exact hbelow _
        · exact hinline
      · exact ih (fun e he => hkeys e (by simp [he])) (fun e he => h e (by simp [he])) b hmem

/-- A document whose texts are kept is written in printable lines. -/
theorem IsKeptDocument.isLined {below : Bool} {k : Nat} {v : Value}
    (h : IsKeptDocument below k v) (indent : Nat) :
    IsLined (writeInline indent v) ∧ ∀ column, IsLined (writeBelow indent column v) := by
  have hspace : isKeptBreak ' ' = true ∨ isPrintable ' ' = true := Or.inr (by decide)
  induction h generalizing indent with
  | text hs => exact ⟨(isLined_scalarLine hs _ _).cons hspace,
      fun column => (isLined_scalarLine hs _ _).cons hspace⟩
  | @word below k v hv =>
      have hword : IsLined (' ' :: scalarWord v ++ ['\n']) :=
        ((isLined_of_printable hv.unbroken.printable).cons hspace).append
          (isLined_nil.cons (Or.inl (by decide)))
      exact ⟨by rwa [writeInline_leaf hv.leaf], fun column => by rwa [writeBelow_leaf hv.leaf]⟩
  | @list below k items _ ih =>
      have hitems (indent : Nat) : IsLined (stack indent (writeItems indent items)) :=
        isLined_stack (isLined_writeItems (fun x hx indent => (ih x hx indent).1) indent)
      cases items with
      | nil =>
          have hempty : IsLined " []\n".toList := isLined_of_all (by decide)
          exact ⟨hempty, fun _ => hempty⟩
      | cons x xs => exact ⟨(hitems _).cons hspace, fun _ => (isLined_newLine _).append (hitems _)⟩
  | @object below k entries _ htexts _ ih =>
      have hentries (indent : Nat) : IsLined (stack indent (writeEntries indent entries)) :=
        isLined_stack (isLined_writeEntries htexts ih indent)
      cases entries with
      | nil =>
          have hempty : IsLined " \x7b\x7d\n".toList := isLined_of_all (by decide)
          exact ⟨hempty, fun _ => hempty⟩
      | cons e es =>
          exact ⟨(hentries _).cons hspace, fun _ => (isLined_newLine _).append (hentries _)⟩

end FunctionPipeline.Yaml

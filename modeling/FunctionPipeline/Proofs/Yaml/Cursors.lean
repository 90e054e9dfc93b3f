import FunctionPipeline.Yaml.Writer
import FunctionPipeline.Yaml.Cursor

/-!
Moving over written text. A reader moves forward by the characters it takes, so what it leaves is
the text without them; between line ends a printable character takes one column. Lines that go on
are indented, and the text below a block is less indented than the block.
-/

namespace FunctionPipeline.Yaml

/-- The characters that a written line is made of: all that a text may hold but line ends, tabs and
the byte order mark. -/
def isPrintable (c : Char) : Bool :=
  isAllowed c && !isLineEnd c && c != '\t' && c != byteOrderMark

/-- The line ends that a reader takes for themselves; the next-line control it takes for a line
feed. -/
def isKeptBreak (c : Char) : Bool := isBreak c && c != '\x85'

theorem isAllowed_of_isPrintable {c : Char} (h : isPrintable c = true) : isAllowed c = true := by
  simp only [isPrintable, Bool.and_eq_true] at h
  exact h.1.1.1

theorem isBreak_of_isKeptBreak {c : Char} (h : isKeptBreak c = true) : isBreak c = true := by
  simp only [isKeptBreak, Bool.and_eq_true] at h
  exact h.1

theorem isKeptBreak_iff {c : Char} :
    isKeptBreak c = true ↔ c = '\n' ∨ c = '\u2028' ∨ c = '\u2029' := by
  simp only [isKeptBreak, isBreak, Bool.and_eq_true, Bool.or_eq_true, decide_eq_true_eq,
    bne_iff_ne, ne_eq]
  constructor
  · rintro ⟨((rfl | rfl) | rfl) | rfl, hne⟩
    · exact Or.inl rfl
    · exact absurd rfl hne
    · exact Or.inr (Or.inl rfl)
    · exact Or.inr (Or.inr rfl)
  · rintro (rfl | rfl | rfl) <;> decide

/-- Line ends that are taken for themselves, and nothing else. -/
def AreBreaks (bs : List Char) : Prop := ∀ b ∈ bs, isKeptBreak b = true

theorem AreBreaks.cons_iff {b : Char} {bs : List Char} :
    AreBreaks (b :: bs) ↔ isKeptBreak b = true ∧ AreBreaks bs := by
  simp [AreBreaks]

/-- What a text may hold is printable, but for controls, line ends and the byte order mark. -/
theorem isPrintable_of_isAllowed {c : Char} (hallowed : isAllowed c = true)
    (hcontrol : 0x20 ≤ c.toNat) (hbreak : isBreak c = false) (hmark : c ≠ byteOrderMark) :
    isPrintable c = true := by
  have hne (d : Char) (hd : d.toNat < 0x20) : c ≠ d := by
    rintro rfl
    omega
  simp [isPrintable, isLineEnd, hallowed, hbreak, hmark, hne '\r' (by decide),
    hne '\t' (by decide)]

/-- A printable character is none of those that are not. -/
theorem ne_of_isPrintable {c d : Char} (hc : isPrintable c = true) (hd : isPrintable d = false) :
    c ≠ d := by
  intro h
  rw [h, hd] at hc
  cases hc

theorem isBreak_of_isPrintable {c : Char} (h : isPrintable c = true) : isBreak c = false := by
  simp [isBreak, ne_of_isPrintable h (d := '\n') (by decide),
    ne_of_isPrintable h (d := '\x85') (by decide), ne_of_isPrintable h (d := '\u2028') (by decide),
    ne_of_isPrintable h (d := '\u2029') (by decide)]

theorem isLineEnd_of_isPrintable {c : Char} (h : isPrintable c = true) : isLineEnd c = false := by
  simp [isLineEnd, isBreak_of_isPrintable h, ne_of_isPrintable h (d := '\r') (by decide)]

theorem isSeparating_of_isPrintable {c : Char} (h : isPrintable c = true) (hspace : c ≠ ' ') :
    isSeparating c = false := by
  simp [isSeparating, isLineEnd_of_isPrintable h, hspace,
    ne_of_isPrintable h (d := '\t') (by decide)]

/-- Whether a text has, after spaces, a printable character that is no number sign, or nothing. -/
def Goes (t : List Char) : Prop :=
  ∀ ch, (t.dropWhile (· = ' ')).head? = some ch → isPrintable ch = true ∧ ch ≠ '#'

theorem goes_nil : Goes [] := fun _ h => by cases h

theorem goes_char {ch : Char} {t : List Char} (hch : isPrintable ch = true) (hspace : ch ≠ ' ')
    (hsign : ch ≠ '#') : Goes (ch :: t) := by
  intro d hd
  simp only [List.dropWhile_cons, hspace, decide_false, Bool.false_eq_true, if_false] at hd
  cases hd
  exact ⟨hch, hsign⟩

theorem goes_spaces (n : Nat) {t : List Char} (h : Goes t) : Goes (List.replicate n ' ' ++ t) := by
  intro d hd
  rw [List.dropWhile_append_of_pos (by simp)] at hd
  exact h d hd

theorem goes_dropWhile {t : List Char} (h : Goes t) : Goes (t.dropWhile (· = ' ')) := by
  intro ch hch
  have hspace := List.head?_dropWhile_not (fun d => decide (d = ' ')) t
  cases hrest : t.dropWhile (· = ' ') with
  | nil => simp [hrest] at hch
  | cons d rest =>
      rw [hrest] at hspace hch
      simp only [List.head?_cons] at hspace
      rw [List.dropWhile_cons, hspace] at hch
      exact h ch (by rw [hrest]; exact hch)

namespace Cursor

theorem rest_next (c : Cursor) : c.next.rest = c.rest.tail := by
  unfold next
  split
  · next h => simp [h]
  · next ch rest h =>
      rw [h, List.tail_cons]
      split
      · rfl
      · split <;> rfl

theorem rest_forward (n : Nat) (c : Cursor) : (c.forward n).rest = c.rest.drop n := by
  induction n generalizing c with
  | zero => rfl
  | succ n ih => rw [forward, ih, rest_next, List.drop_tail]

theorem forward_add (m n : Nat) (c : Cursor) : c.forward (m + n) = (c.forward m).forward n := by
  induction m generalizing c with
  | zero => rw [Nat.zero_add, forward]
  | succ m ih => rw [Nat.succ_add, forward, ih, forward]

theorem forward_one (c : Cursor) : c.forward 1 = c.next := rfl

/-- The place after a text in front has the rest in front. -/
theorem rest_forward_append {c : Cursor} {s t : List Char} (h : c.rest = s ++ t) :
    (c.forward s.length).rest = t := by
  rw [rest_forward, h, List.drop_left]

theorem line_le_next (c : Cursor) : c.line ≤ c.next.line := by
  unfold next
  split
  · exact Nat.le_refl _
  · split
    · exact Nat.le_succ _
    · split <;> exact Nat.le_refl _

theorem line_le_forward (n : Nat) (c : Cursor) : c.line ≤ (c.forward n).line := by
  induction n generalizing c with
  | zero => exact Nat.le_refl _
  | succ n ih => exact Nat.le_trans (line_le_next c) (ih c.next)

theorem next_printable {c : Cursor} {ch : Char} {t : List Char} (h : c.rest = ch :: t)
    (hch : isPrintable ch = true) : c.next = ⟨t, c.index + 1, c.line, c.column + 1⟩ := by
  unfold next
  simp [h, isBreak_of_isPrintable hch, ne_of_isPrintable hch (d := '\r') (by decide),
    ne_of_isPrintable hch (d := byteOrderMark) (by decide)]

theorem next_break {c : Cursor} {b : Char} {t : List Char} (h : c.rest = b :: t)
    (hb : isKeptBreak b = true) : c.next = ⟨t, c.index + 1, c.line + 1, 0⟩ := by
  unfold next
  simp [h, isBreak_of_isKeptBreak hb]

theorem next_newline {c : Cursor} {t : List Char} (h : c.rest = '\n' :: t) :
    c.next = ⟨t, c.index + 1, c.line + 1, 0⟩ := next_break h (by decide)

/-- Over printable characters the place moves on in the line. -/
theorem forward_printable {c : Cursor} {s t : List Char} (h : c.rest = s ++ t)
    (hs : ∀ ch ∈ s, isPrintable ch = true) :
    c.forward s.length = ⟨t, c.index + s.length, c.line, c.column + s.length⟩ := by
  induction s generalizing c with
  | nil =>
      obtain ⟨rest, index, line, column⟩ := c
      simp only [List.nil_append] at h
      subst h
      rfl
  | cons ch s ih =>
      have hnext := next_printable h (hs ch (by simp))
      have hrest : c.next.rest = s ++ t := by rw [hnext]; rfl
      rw [List.length_cons, forward, ih hrest fun d hd => hs d (by simp [hd]), hnext]
      simp only [Cursor.mk.injEq, true_and]
      omega

theorem forward_newLine {c : Cursor} {indent : Nat} {t : List Char}
    (h : c.rest = newLine indent ++ t) :
    c.forward (indent + 1) = ⟨t, c.index + (indent + 1), c.line + 1, indent⟩ := by
  have hnext := next_newline (t := List.replicate indent ' ' ++ t) h
  have hrest : c.next.rest = List.replicate indent ' ' ++ t := by rw [hnext]
  have hspaces := forward_printable hrest fun d hd => by
    rw [List.eq_of_mem_replicate hd]
    decide
  rw [List.length_replicate] at hspaces
  rw [forward, hspaces, hnext]
  simp only [Cursor.mk.injEq, true_and]
  omega

theorem lineEnd?_break {c : Cursor} {b : Char} {t : List Char} (h : c.rest = b :: t)
    (hb : isKeptBreak b = true) : c.lineEnd? = some (b, c.next) := by
  rcases isKeptBreak_iff.mp hb with rfl | rfl | rfl <;> simp [lineEnd?, h, isBreak]

theorem lineEnd?_newline {c : Cursor} {t : List Char} (h : c.rest = '\n' :: t) :
    c.lineEnd? = some ('\n', c.next) := lineEnd?_break h (by decide)

theorem lineEnd?_of_not {c : Cursor} (h : ∀ ch, c.rest.head? = some ch → isLineEnd ch = false) :
    c.lineEnd? = none := by
  unfold lineEnd?
  split
  next t hrest => exact absurd (h '\r' (by simp [hrest])) (by decide)
  next ch t _ hrest =>
    have hch := h ch (by simp [hrest])
    simp only [isLineEnd, isBreak, Bool.or_eq_false_iff, decide_eq_false_iff_not] at hch
    simp [isBreak, hch]
  next => rfl

theorem takeWhile_append {p : Char → Bool} {c : Cursor} {s t : List Char} (h : c.rest = s ++ t)
    (hs : ∀ ch ∈ s, p ch = true) (ht : ∀ ch, t.head? = some ch → p ch = false) :
    c.takeWhile p = (s, c.forward s.length) := by
  have htaken : (s ++ t).takeWhile p = s := by
    rw [List.takeWhile_append_of_pos hs]
    cases t with
    | nil => simp
    | cons ch t => simp [ht ch rfl]
  simp only [takeWhile, h, htaken]

/-- What is in front already is passed by going nowhere. -/
theorem takeWhile_none {p : Char → Bool} {c : Cursor}
    (h : ∀ ch, c.rest.head? = some ch → p ch = false) : c.takeWhile p = ([], c) := by
  have := takeWhile_append (c := c) (s := []) (p := p) rfl (by simp) h
  exact this

theorem skipSpaces_eq (c : Cursor) :
    c.skipSpaces = ⟨c.rest.dropWhile (· = ' '), c.index + (c.rest.takeWhile (· = ' ')).length,
      c.line, c.column + (c.rest.takeWhile (· = ' ')).length⟩ := by
  have hsplit : c.rest = c.rest.takeWhile (· = ' ') ++ c.rest.dropWhile (· = ' ') :=
    List.takeWhile_append_dropWhile.symm
  apply forward_printable hsplit
  intro d hd
  have hspace : d = ' ' := by simpa using List.all_eq_true.mp List.all_takeWhile d hd
  rw [hspace]
  decide

theorem length_skipWhile (p : Char → Bool) (c : Cursor) :
    (c.skipWhile p).rest.length ≤ c.rest.length := by
  simp [skipWhile, takeWhile, rest_forward]

theorem length_lineEnd? {c after : Cursor} {ch : Char} (h : c.lineEnd? = some (ch, after)) :
    after.rest.length ≤ c.rest.length := by
  have hnext : c.next.rest.length ≤ c.rest.length := by
    rw [rest_next, List.length_tail]
    exact Nat.sub_le _ _
  unfold lineEnd? at h
  split at h
  · cases h
    rw [rest_forward, List.length_drop]
    exact Nat.sub_le _ _
  · split at h
    · cases h
      exact hnext
    · split at h
      · cases h
        exact hnext
      · cases h
  · cases h

theorem skipSpaces_of_not {c : Cursor} (h : c.rest.head? ≠ some ' ') : c.skipSpaces = c := by
  rw [skipSpaces, skipWhile, takeWhile_none fun ch hch => ?_]
  simpa using fun heq => h (by rw [hch, heq])

theorem skipSpaces_skipSpaces (c : Cursor) : c.skipSpaces.skipSpaces = c.skipSpaces := by
  apply skipSpaces_of_not
  intro hspace
  have hnot := List.head?_dropWhile_not (fun d => decide (d = ' ')) c.rest
  rw [skipSpaces_eq] at hspace
  rw [hspace] at hnot
  simp at hnot

/-- The line between two documents starts with hyphens or points, the same one again. -/
theorem atMarker_of_not {c : Cursor} {ch : Char} {t : List Char} (h : c.rest = ch :: t)
    (hnot : (ch ≠ '-' ∧ ch ≠ '.') ∨ t.head? ≠ some ch) : c.atMarker = false := by
  unfold atMarker
  rw [h]
  split
  next heq =>
    cases heq
    rcases hnot with ⟨hhyphen, hpoint⟩ | hsecond
    · simp [hhyphen, hpoint]
    · simp only [List.head?_cons, ne_eq, Option.some.injEq] at hsecond
      simp [Ne.symm hsecond]
  next => rfl

end Cursor

end FunctionPipeline.Yaml

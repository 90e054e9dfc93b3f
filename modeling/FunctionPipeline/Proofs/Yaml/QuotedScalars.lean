import FunctionPipeline.Yaml.ScalarReader
import FunctionPipeline.Proofs.Text.Hex
import FunctionPipeline.Proofs.Yaml.LiteralBlocks

/-!
Scalars in quotes are read back. The writers work character by character, the readers take gaps
between the words as wholes; so each reader gets a relation that is independent of its fuel, with
one rule for each thing that is written, and the texts are followed by induction.
-/

namespace FunctionPipeline.Yaml

/-- Whether spaces are followed by a printable character on the same line. -/
def goesOn (s : List Char) : Prop :=
  ∃ spaces ch t, s = spaces ++ ch :: t ∧ (∀ d ∈ spaces, d = ' ') ∧ isPrintable ch = true ∧ ch ≠ ' '

theorem goesOn_of_printable {ch : Char} {t : List Char} (h : isPrintable ch = true)
    (hspace : ch ≠ ' ') : goesOn (ch :: t) := ⟨[], ch, t, rfl, by simp, h, hspace⟩

theorem goesOn_space {s : List Char} (h : goesOn s) : goesOn (' ' :: s) := by
  obtain ⟨spaces, ch, t, rfl, hspaces, hch, hne⟩ := h
  exact ⟨' ' :: spaces, ch, t, rfl, by simpa using hspaces, hch, hne⟩

private theorem not_blank {ch : Char} (h : isPrintable ch = true) (hne : ch ≠ ' ') :
    (decide (ch = ' ') || decide (ch = '\t')) = false := by
  simp [hne, ne_of_isPrintable h (d := '\t') (by decide)]

/-- A gap of spaces within a line. -/
theorem quotedGap_spaces (spaces : List Char) {c : Cursor} {t : List Char} {ch : Char}
    (h : c.rest = spaces ++ ch :: t) (hspaces : ∀ d ∈ spaces, d = ' ')
    (hch : isPrintable ch = true) (hne : ch ≠ ' ') :
    quotedGap c = some (spaces, c.forward spaces.length) := by
  have htaken := Cursor.takeWhile_append (p := fun d => d = ' ' || d = '\t') h
    (fun d hd => by simp [hspaces d hd]) (fun d hd => by cases hd; exact not_blank hch hne)
  have hrest := Cursor.rest_forward_append h
  have hend : (c.forward spaces.length).lineEnd? = none :=
    Cursor.lineEnd?_of_not fun d hd => by
      rw [hrest] at hd
      cases hd
      exact isLineEnd_of_isPrintable hch
  simp only [quotedGap, htaken, hrest, hend, List.isEmpty_cons, Bool.false_eq_true, if_false]

theorem quotedBreaks_indent (fuel : Nat) {c : Cursor} {t : List Char} {ch : Char} {indent : Nat}
    (h : c.rest = List.replicate indent ' ' ++ ch :: t) (hindent : 0 < indent)
    (hch : isPrintable ch = true) (hne : ch ≠ ' ') :
    quotedBreaks (fuel + 1) c = some ([], c.forward indent) := by
  have hmarker : c.atMarker = false := by
    obtain ⟨n, rfl⟩ : ∃ n, indent = n + 1 := ⟨indent - 1, by omega⟩
    exact Cursor.atMarker_of_not h (Or.inl (by decide))
  have htaken := Cursor.takeWhile_append (p := fun d => d = ' ' || d = '\t') h
    (fun d hd => by simp [List.eq_of_mem_replicate hd])
    (fun d hd => by cases hd; exact not_blank hch hne)
  rw [List.length_replicate] at htaken
  have hrest : (c.forward indent).rest = ch :: t := by
    have := Cursor.rest_forward_append h
    rwa [List.length_replicate] at this
  have hend : (c.forward indent).lineEnd? = none :=
    Cursor.lineEnd?_of_not fun d hd => by
      rw [hrest] at hd
      cases hd
      exact isLineEnd_of_isPrintable hch
  simp [quotedBreaks, hmarker, Cursor.skipWhile, htaken, hend]

/-- Line ends before an indented line are taken for themselves. -/
theorem quotedBreaks_breaks {bs : List Char} (hbs : AreBreaks bs) (fuel : Nat) {c : Cursor}
    {t : List Char} {ch : Char} {indent : Nat}
    (h : c.rest = bs ++ (List.replicate indent ' ' ++ ch :: t)) (hindent : 0 < indent)
    (hch : isPrintable ch = true) (hne : ch ≠ ' ') :
    quotedBreaks (fuel + bs.length + 1) c = some (bs, c.forward (bs.length + indent)) := by
  induction bs generalizing c with
  | nil =>
      rw [List.length_nil, Nat.zero_add]
      exact quotedBreaks_indent fuel h hindent hch hne
  | cons b bs ih =>
      obtain ⟨hb, hmore⟩ := AreBreaks.cons_iff.mp hbs
      have hline : c.rest = b :: (bs ++ (List.replicate indent ' ' ++ ch :: t)) := h
      have hnot (d : Char) (hd : isKeptBreak d = false) : b ≠ d := by
        rintro rfl
        rw [hb] at hd
        cases hd
      have hmarker : c.atMarker = false :=
        Cursor.atMarker_of_not hline (Or.inl ⟨hnot '-' (by decide), hnot '.' (by decide)⟩)
      have htaken : c.skipWhile (fun d => d = ' ' || d = '\t') = c := by
        rw [Cursor.skipWhile, Cursor.takeWhile_none fun d hd => ?_]
        rw [hline] at hd
        cases hd
        simp [hnot ' ' (by decide), hnot '\t' (by decide)]
      have hothers := ih hmore (c := c.next) (by rw [Cursor.rest_next, hline, List.tail_cons])
      have hfuel : fuel + (b :: bs).length + 1 = fuel + bs.length + 1 + 1 := by simp; omega
      have hplace : c.next.forward (bs.length + indent) =
          c.forward ((b :: bs).length + indent) := by
        rw [List.length_cons, Nat.add_right_comm, Cursor.forward]
      rw [hfuel, quotedBreaks, if_neg (by simp [hmarker])]
      simp only [htaken, Cursor.lineEnd?_break hline hb, hothers, hplace]
      rfl

/-- A gap that begins with a line end. -/
private theorem quotedGap_breaks {b : Char} {bs : List Char} (hbs : AreBreaks (b :: bs))
    {c : Cursor} {t : List Char} {ch : Char} {indent : Nat}
    (h : c.rest = b :: bs ++ (List.replicate indent ' ' ++ ch :: t)) (hindent : 0 < indent)
    (hch : isPrintable ch = true) (hne : ch ≠ ' ') :
    quotedGap c = some (foldedBreaks b bs, c.forward ((b :: bs).length + indent)) := by
  obtain ⟨hb, hmore⟩ := AreBreaks.cons_iff.mp hbs
  have hline : c.rest = b :: (bs ++ (List.replicate indent ' ' ++ ch :: t)) := h
  have htaken : c.takeWhile (fun d => d = ' ' || d = '\t') = ([], c) :=
    Cursor.takeWhile_none fun d hd => by
      rw [hline] at hd
      cases hd
      rcases isKeptBreak_iff.mp hb with rfl | rfl | rfl <;> decide
  have hnext : c.next.rest = bs ++ (List.replicate indent ' ' ++ ch :: t) := by
    rw [Cursor.rest_next, hline, List.tail_cons]
  have hfuel : c.next.rest.length + 1 = (indent + t.length + 1) + bs.length + 1 := by
    rw [hnext]
    simp only [List.length_append, List.length_replicate, List.length_cons]
    omega
  have hbreaks := quotedBreaks_breaks hmore (indent + t.length + 1) hnext hindent hch hne
  rw [← hfuel] at hbreaks
  have hplace : c.next.forward (bs.length + indent) = c.forward ((b :: bs).length + indent) := by
    rw [List.length_cons, Nat.add_right_comm, Cursor.forward]
  have hempty : c.rest.isEmpty = false := by rw [hline]; rfl
  simp [quotedGap, htaken, hempty, Cursor.lineEnd?_break hline hb, hbreaks, hplace]

namespace SingleQuoted

/-- The reader takes a text up to a place, whatever fuel it has beyond the rest. -/
def Reads (c : Cursor) (s : List Char) (after : Cursor) : Prop :=
  ∀ fuel, c.rest.length < fuel → readFrom fuel c = some (s, after)

theorem reads_end {c : Cursor} {t : List Char} (h : c.rest = '\'' :: t)
    (ht : t.head? ≠ some '\'') : Reads c [] c.next := by
  intro fuel hfuel
  obtain ⟨fuel, rfl⟩ : ∃ f, fuel = f + 1 := ⟨fuel - 1, by omega⟩
  unfold readFrom
  rw [h]
  split
  next heq => cases heq
  next heq => cases heq; simp at ht
  next => rfl
  next hquote heq => cases heq; exact absurd rfl hquote

theorem reads_quote {c after : Cursor} {s t : List Char} (h : c.rest = '\'' :: '\'' :: t)
    (hrest : Reads (c.forward 2) s after) : Reads c ('\'' :: s) after := by
  intro fuel hfuel
  obtain ⟨fuel, rfl⟩ : ∃ f, fuel = f + 1 := ⟨fuel - 1, by omega⟩
  have hlength : (c.forward 2).rest.length < fuel := by
    rw [Cursor.rest_forward, h]
    rw [h] at hfuel
    simp only [List.length_cons, List.drop_succ_cons, List.drop_zero] at hfuel ⊢
    omega
  simp [readFrom, h, hrest fuel hlength]

theorem reads_char {c after : Cursor} {s t : List Char} {ch : Char} (h : c.rest = ch :: t)
    (hch : isPrintable ch = true) (hspace : ch ≠ ' ') (hquote : ch ≠ '\'')
    (hrest : Reads c.next s after) : Reads c (ch :: s) after := by
  intro fuel hfuel
  obtain ⟨fuel, rfl⟩ : ∃ f, fuel = f + 1 := ⟨fuel - 1, by omega⟩
  have hlength : c.next.rest.length < fuel := by
    rw [Cursor.rest_next, h]
    rw [h] at hfuel
    simp only [List.length_cons, List.tail_cons] at hfuel ⊢
    omega
  have hseparating := isSeparating_of_isPrintable hch hspace
  simp [readFrom, h, hquote, hseparating, hrest fuel hlength]

/-- A gap of any kind stands for a text, after which the reader goes on. -/
private theorem readFrom_gap {c between : Cursor} {gap t : List Char} {ch : Char} {fuel : Nat}
    (h : c.rest = ch :: t) (hch : isSeparating ch = true) (hquote : ch ≠ '\'')
    (hgap : quotedGap c = some (gap, between)) :
    readFrom (fuel + 1) c =
      (readFrom fuel between).map fun found => (gap ++ found.1, found.2) := by
  cases hothers : readFrom fuel between with
  | none => simp [readFrom, h, hch, hquote, hgap, hothers]
  | some found => simp [readFrom, h, hch, hquote, hgap, hothers]

/-- A gap that begins with a line end stands for what the line ends stand for together. -/
private theorem reads_lineEnds {c after : Cursor} {b : Char} {bs s t : List Char} {ch : Char}
    {indent : Nat} (hbs : AreBreaks (b :: bs))
    (h : c.rest = b :: bs ++ (List.replicate indent ' ' ++ ch :: t)) (hindent : 0 < indent)
    (hch : isPrintable ch = true) (hne : ch ≠ ' ')
    (hrest : Reads (c.forward ((b :: bs).length + indent)) s after) :
    Reads c (foldedBreaks b bs ++ s) after := by
  intro fuel hfuel
  obtain ⟨fuel, rfl⟩ : ∃ f, fuel = f + 1 := ⟨fuel - 1, by omega⟩
  have hlength : (c.forward ((b :: bs).length + indent)).rest.length < fuel := by
    rw [Cursor.rest_forward, List.length_drop]
    have hpositive : 0 < c.rest.length := by simp [h]
    simp only [List.length_cons]
    omega
  have hb := (AreBreaks.cons_iff.mp hbs).1
  have hquote : b ≠ '\'' := by
    rintro rfl
    cases hb
  have hseparating : isSeparating b = true := by
    simp [isSeparating, isLineEnd, isBreak_of_isKeptBreak hb]
  rw [readFrom_gap h hseparating hquote (quotedGap_breaks hbs h hindent hch hne),
    hrest fuel hlength]
  rfl

theorem reads_fold {c after : Cursor} {s t : List Char} {ch : Char} {indent : Nat}
    (h : c.rest = newLine indent ++ ch :: t) (hindent : 0 < indent)
    (hch : isPrintable ch = true) (hne : ch ≠ ' ')
    (hrest : Reads (c.forward (indent + 1)) s after) : Reads c (' ' :: s) after := by
  have hfeed : AreBreaks ['\n'] := by simp [AreBreaks, isKeptBreak, isBreak]
  exact reads_lineEnds hfeed h hindent hch hne (by rw [Nat.add_comm] at hrest; exact hrest)

/-- Line ends that are no line feeds stand for themselves. -/
theorem reads_breaks {c after : Cursor} {b : Char} {bs s t : List Char} {ch : Char} {indent : Nat}
    (hbs : AreBreaks (b :: bs)) (hfeed : b ≠ '\n')
    (h : c.rest = b :: bs ++ (List.replicate indent ' ' ++ ch :: t)) (hindent : 0 < indent)
    (hch : isPrintable ch = true) (hne : ch ≠ ' ')
    (hrest : Reads (c.forward ((b :: bs).length + indent)) s after) :
    Reads c (b :: bs ++ s) after := by
  have hread := reads_lineEnds hbs h hindent hch hne hrest
  rwa [foldedBreaks, if_pos hfeed] at hread

/-- One space more in front of a text. Spaces that follow are taken with it at once. -/
theorem reads_space {c after : Cursor} {s t : List Char} (h : c.rest = ' ' :: t) (ht : goesOn t)
    (hrest : Reads c.next s after) : Reads c (' ' :: s) after := by
  intro fuel hfuel
  obtain ⟨fuel, rfl⟩ : ∃ f, fuel = f + 1 := ⟨fuel - 1, by omega⟩
  have hnext : c.next.rest = t := by rw [Cursor.rest_next, h, List.tail_cons]
  have hlength : c.next.rest.length < fuel := by
    rw [hnext]
    rw [h, List.length_cons] at hfuel
    omega
  obtain ⟨spaces, ch, u, rfl, hspaces, hch, hne⟩ := ht
  have hgap := quotedGap_spaces (' ' :: spaces) h (by simpa using hspaces) hch hne
  rw [readFrom_gap h (by decide) (by decide) hgap]
  cases spaces with
  | nil =>
      have hsame : readFrom fuel (c.forward [' '].length) = some (s, after) := hrest fuel hlength
      rw [hsame]
      rfl
  | cons space others =>
      -- at the next space the reader takes the rest of this gap, and goes on at the same place
      obtain rfl : space = ' ' := hspaces space (by simp)
      have hshorter := quotedGap_spaces _ hnext hspaces hch hne
      have hsame := hrest (fuel + 1) (by omega)
      rw [readFrom_gap hnext (by decide) (by decide) hshorter, Option.map_eq_some_iff] at hsame
      obtain ⟨found, hfound, hend⟩ := hsame
      have hplace : readFrom fuel (c.forward (' ' :: ' ' :: others).length) = some found := hfound
      rw [hplace]
      cases hend
      rfl

/-- A text without line feeds in which no space stands beside a line end. -/
structure IsQuotable (s : List Char) : Prop where
  lined : IsLined s
  feed : '\n' ∉ s
  before : Analysis.anyPair Analysis.isSpace isBreak s = false
  after : Analysis.anyPair isBreak Analysis.isSpace s = false

namespace IsQuotable

theorem anyPair_tail {p q : Char → Bool} {c : Char} {s : List Char}
    (h : Analysis.anyPair p q (c :: s) = false) : Analysis.anyPair p q s = false := by
  cases s with
  | nil => rfl
  | cons d s =>
      simp only [Analysis.anyPair, Bool.or_eq_false_iff] at h
      exact h.2

theorem tail {c : Char} {s : List Char} (h : IsQuotable (c :: s)) : IsQuotable s where
  lined d hd := h.lined d (by simp [hd])
  feed hfeed := h.feed (by simp [hfeed])
  before := anyPair_tail h.before
  after := anyPair_tail h.after

/-- After a space comes something printable. -/
theorem printable_after_space {d : Char} {s : List Char} (h : IsQuotable (' ' :: d :: s)) :
    isPrintable d = true := by
  have hbefore := h.before
  simp only [Analysis.anyPair, Analysis.isSpace, decide_true, Bool.true_and,
    Bool.or_eq_false_iff] at hbefore
  apply (h.lined d (by simp)).resolve_left
  intro hd
  rw [isBreak_of_isKeptBreak hd] at hbefore
  cases hbefore.1

/-- After line ends comes no space. -/
theorem drop_breaks {b : Char} {bs s : List Char} (hbs : AreBreaks (b :: bs))
    (h : IsQuotable (b :: bs ++ s)) : IsQuotable s ∧ s.head? ≠ some ' ' := by
  induction bs generalizing b with
  | nil =>
      refine ⟨h.tail, ?_⟩
      cases s with
      | nil => simp
      | cons d s =>
          have hafter := h.after
          simp only [List.singleton_append, Analysis.anyPair,
            isBreak_of_isKeptBreak (AreBreaks.cons_iff.mp hbs).1, Analysis.isSpace, Bool.true_and,
            Bool.or_eq_false_iff, decide_eq_false_iff_not] at hafter
          simpa using hafter.1
  | cons e bs ih => exact ih (AreBreaks.cons_iff.mp hbs).2 h.tail

theorem of_printable {s : List Char} (h : ∀ c ∈ s, isPrintable c = true) : IsQuotable s where
  lined := isLined_of_printable h
  feed hfeed := absurd (h _ hfeed) (by decide)
  before := by
    induction s with
    | nil => rfl
    | cons c s ih =>
        cases s with
        | nil => rfl
        | cons d s =>
            have hd := isBreak_of_isPrintable (h d (by simp))
            have hrest := ih fun e he => h e (by simp [List.mem_cons.mp he])
            simp [Analysis.anyPair, hd, hrest]
  after := by
    induction s with
    | nil => rfl
    | cons c s ih =>
        cases s with
        | nil => rfl
        | cons d s =>
            have hc := isBreak_of_isPrintable (h c (by simp))
            have hrest := ih fun e he => h e (by simp [List.mem_cons.mp he])
            simp [Analysis.anyPair, hc, hrest]

end IsQuotable

section Written

variable {fold : Bool} {indent : Nat}

theorem writeFrom_cons {column : Nat} {before : Option Char} {c : Char} {rest : List Char}
    (hbefore : ∀ b, before = some b → isPrintable b = true) (hc : isPrintable c = true) :
    writeFrom fold indent column before (c :: rest) =
      if c = '\'' then '\'' :: '\'' :: writeFrom fold indent (column + 2) (some c) rest
      else if c = ' ' && fold && foldsAt column before rest.head? then
        newLine indent ++ writeFrom fold indent indent (some c) rest
      else c :: writeFrom fold indent (column + 1) (some c) rest := by
  have hlead : (before.map isBreak).getD false = false := by
    cases before with
    | none => rfl
    | some b => exact isBreak_of_isPrintable (hbefore b rfl)
  simp [writeFrom, hlead, isBreak_of_isPrintable hc]

theorem writeFrom_nil {column : Nat} {before : Option Char}
    (hbefore : ∀ b, before = some b → isPrintable b = true) :
    writeFrom fold indent column before [] = [] := by
  cases before with
  | none => rfl
  | some b => simp [writeFrom, isBreak_of_isPrintable (hbefore b rfl)]

theorem some_printable {c : Char} (hc : isPrintable c = true) :
    ∀ b, some c = some b → isPrintable b = true := by
  intro b hb
  cases hb
  exact hc

private theorem writeFrom_head (fold : Bool) (indent column : Nat) {before : Option Char} {c : Char}
    (rest : List Char) (hbefore : ∀ b, before = some b → isPrintable b = true)
    (hc : isPrintable c = true) (hspace : c ≠ ' ') :
    ∃ w, writeFrom fold indent column before (c :: rest) = c :: w := by
  rw [writeFrom_cons hbefore hc]
  split
  next hquote => exact ⟨_, by rw [hquote]⟩
  next => exact ⟨_, by simp [hspace]; rfl⟩

/-- Line ends are written as they are, and the line after them is indented. -/
private theorem writeFrom_breaks {b : Char} {bs s : List Char} (hbs : AreBreaks (b :: bs))
    (hs : ∀ d, s.head? = some d → isPrintable d = true ∧ d ≠ ' ') (column : Nat)
    (before : Option Char) :
    writeFrom fold indent column before (b :: bs ++ s) =
      b :: bs ++ (List.replicate indent ' ' ++ writeFrom fold indent indent none s) := by
  induction bs generalizing b column before with
  | nil =>
      have hb := (AreBreaks.cons_iff.mp hbs).1
      have hbreak := isBreak_of_isKeptBreak hb
      have hquote : b ≠ '\'' := by
        rintro rfl
        cases hb
      cases s with
      | nil => simp [writeFrom, hbreak, hquote]
      | cons d s =>
          obtain ⟨hd, hspace⟩ := hs d rfl
          simp [writeFrom, hbreak, hquote, isBreak_of_isPrintable hd, hspace]
  | cons e bs ih =>
      obtain ⟨hb, hmore⟩ := AreBreaks.cons_iff.mp hbs
      have hbreak := isBreak_of_isKeptBreak hb
      have hquote : b ≠ '\'' := by
        rintro rfl
        cases hb
      have hothers := ih hmore 0 (some b)
      change writeFrom fold indent column before (b :: (e :: bs ++ s)) = b :: (e :: bs ++ _)
      rw [writeFrom]
      simp only [hbreak, Bool.not_true, Bool.and_false, Bool.false_eq_true, if_false, if_neg hquote,
        if_true, List.nil_append]
      rw [hothers]

/-- After a space no line is folded before something else is written. -/
private theorem goesOn_writeFrom {column : Nat} {s : List Char} (t : List Char)
    (hs : IsQuotable (' ' :: s)) :
    goesOn (writeFrom fold indent column (some ' ') s ++ '\'' :: t) := by
  induction s generalizing column with
  | nil =>
      rw [writeFrom_nil (some_printable (by decide))]
      exact goesOn_of_printable (by decide) (by decide)
  | cons c rest ih =>
      have hc := hs.printable_after_space
      rw [writeFrom_cons (some_printable (by decide)) hc]
      split
      · exact goesOn_of_printable (by decide) (by decide)
      · rw [if_neg (by simp [foldsAt])]
        by_cases hspace : c = ' '
        · subst hspace
          exact goesOn_space (ih hs.tail)
        · exact goesOn_of_printable hc hspace

/-- A space where the line is folded, before a text that begins with no space. -/
private theorem reads_folded {c : Cursor} {d : Char} {others t : List Char} (hindent : 0 < indent)
    (hd : isPrintable d = true) (hspace : d ≠ ' ')
    (h : c.rest =
      newLine indent ++ writeFrom fold indent indent (some ' ') (d :: others) ++ '\'' :: t)
    (hread : (c.forward (indent + 1)).rest =
        writeFrom fold indent indent (some ' ') (d :: others) ++ '\'' :: t →
      Reads (c.forward (indent + 1)) (d :: others) ((c.forward (indent + 1)).forward
        ((writeFrom fold indent indent (some ' ') (d :: others)).length + 1))) :
    Reads c (' ' :: d :: others) (c.forward ((newLine indent ++
      writeFrom fold indent indent (some ' ') (d :: others)).length + 1)) := by
  have hlength : (newLine indent).length = indent + 1 := by simp [newLine]
  have hblank : isPrintable ' ' = true := by decide
  obtain ⟨w, hw⟩ := writeFrom_head fold indent indent others (some_printable hblank) hd hspace
  rw [hw, List.append_assoc] at h
  have hplace := Cursor.rest_forward_append h
  rw [hlength] at hplace
  have hall := reads_fold h hindent hd hspace (hread (by rw [hw]; exact hplace))
  rwa [← Cursor.forward_add, ← hlength, ← Nat.add_assoc, ← List.length_append] at hall

/-- Line ends with the indentation after them, before a text that begins with no space. -/
private theorem reads_indented {c : Cursor} {b : Char} {bs s t : List Char} (hindent : 0 < indent)
    (hbs : AreBreaks (b :: bs)) (hfeed : b ≠ '\n')
    (hs : ∀ d, s.head? = some d → isPrintable d = true ∧ d ≠ ' ')
    (h : c.rest = b :: bs ++ (List.replicate indent ' ' ++ writeFrom fold indent indent none s) ++
      '\'' :: t)
    (hread : ∀ e : Cursor, e.rest = writeFrom fold indent indent none s ++ '\'' :: t →
      Reads e s (e.forward ((writeFrom fold indent indent none s).length + 1))) :
    Reads c (b :: bs ++ s) (c.forward ((b :: bs ++ (List.replicate indent ' ' ++
      writeFrom fold indent indent none s)).length + 1)) := by
  obtain ⟨ch, w, hw, hch, hne⟩ : ∃ ch w,
      writeFrom fold indent indent none s ++ '\'' :: t = ch :: w ∧
        isPrintable ch = true ∧ ch ≠ ' ' := by
    cases s with
    | nil => exact ⟨'\'', t, rfl, by decide, by decide⟩
    | cons d s =>
        obtain ⟨hd, hspace⟩ := hs d rfl
        obtain ⟨w, hw⟩ := @writeFrom_head fold indent indent none d s (by simp) hd hspace
        exact ⟨d, w ++ '\'' :: t, by rw [hw]; rfl, hd, hspace⟩
  rw [List.append_assoc, List.append_assoc, hw] at h
  have hplace : (c.forward ((b :: bs).length + indent)).rest = ch :: w := by
    rw [Cursor.forward_add]
    have hbelow := Cursor.rest_forward_append h
    have hinside := Cursor.rest_forward_append hbelow
    rwa [List.length_replicate] at hinside
  have hall := reads_breaks hbs hfeed h hindent hch hne (hread _ (by rw [hplace, hw]))
  have hcount : (b :: bs ++ (List.replicate indent ' ' ++
      writeFrom fold indent indent none s)).length + 1 =
      (b :: bs).length + indent + ((writeFrom fold indent indent none s).length + 1) := by
    simp only [List.length_append, List.length_replicate]
    omega
  rwa [← Cursor.forward_add, ← hcount] at hall

/-- What stands between the quotes is read up to the closing one. -/
theorem reads_writeFrom {s : List Char} {column : Nat} {before : Option Char} {c : Cursor}
    {t : List Char} (hindent : 0 < indent) (hs : IsQuotable s)
    (hbefore : ∀ b, before = some b → isPrintable b = true) (ht : t.head? ≠ some '\'')
    (h : c.rest = writeFrom fold indent column before s ++ '\'' :: t) :
    Reads c s (c.forward ((writeFrom fold indent column before s).length + 1)) := by
  -- on the length, as all line ends in a row are read together
  induction hlength : s.length using Nat.strongRecOn generalizing s column before c with
  | ind length ih =>
    have hread {s : List Char} {column : Nat} {before : Option Char} {c : Cursor}
        (hless : s.length < length) (hs : IsQuotable s)
        (hbefore : ∀ b, before = some b → isPrintable b = true)
        (h : c.rest = writeFrom fold indent column before s ++ '\'' :: t) :
        Reads c s (c.forward ((writeFrom fold indent column before s).length + 1)) :=
      ih s.length hless hs hbefore h rfl
    cases s with
    | nil =>
        rw [writeFrom_nil hbefore] at h ⊢
        exact reads_end h ht
    | cons ch rest =>
      have hless : rest.length < length := by simp [← hlength]
      rcases hs.lined ch (by simp) with hbreak | hch
      · obtain ⟨bs, others, heq, hbs, hothers⟩ := exists_lineEnds fun d hd => hs.lined d hd
        cases bs with
        | nil =>
            rw [List.nil_append] at heq
            have hprintable := hothers ch (by rw [← heq]; rfl)
            rw [not_isPrintable_of_isKeptBreak hbreak] at hprintable
            cases hprintable
        | cons b bs =>
            rw [heq] at hs h hlength ⊢
            obtain ⟨hdropped, hspace⟩ := hs.drop_breaks hbs
            have hfeed : b ≠ '\n' := fun hb => hs.feed (by simp [hb])
            have hnext : ∀ d, others.head? = some d → isPrintable d = true ∧ d ≠ ' ' :=
              fun d hd => ⟨hothers d hd, fun heq => hspace (by rw [hd, heq])⟩
            rw [writeFrom_breaks hbs hnext] at h ⊢
            refine reads_indented hindent hbs hfeed hnext h fun e he =>
              hread ?_ hdropped (by simp) he
            simp only [List.length_append, List.length_cons] at hlength
            omega
      · rw [writeFrom_cons hbefore hch] at h ⊢
        split at h
        next hquote =>
          rw [if_pos hquote]
          subst hquote
          have hplace : (c.forward 2).rest =
              writeFrom fold indent (column + 2) (some '\'') rest ++ '\'' :: t := by
            rw [Cursor.rest_forward, h]
            rfl
          exact reads_quote h (hread hless hs.tail (some_printable hch) hplace)
        next hquote =>
          rw [if_neg hquote]
          split at h
          next hfold =>
            rw [if_pos hfold]
            simp only [Bool.and_eq_true, decide_eq_true_eq, foldsAt, bne_iff_ne] at hfold
            obtain ⟨⟨rfl, -⟩, ⟨-, hsome⟩, hnotSpace⟩ := hfold
            obtain ⟨d, others, rfl⟩ : ∃ d others, rest = d :: others := by
              cases rest with
              | nil => simp at hsome
              | cons d others => exact ⟨d, others, rfl⟩
            have hd : d ≠ ' ' := fun heq => hnotSpace (by rw [heq]; rfl)
            exact reads_folded hindent hs.printable_after_space hd h
              fun hplace => hread hless hs.tail (some_printable hch) hplace
          next hfold =>
            rw [if_neg hfold]
            have hplace : c.next.rest =
                writeFrom fold indent (column + 1) (some ch) rest ++ '\'' :: t := by
              rw [Cursor.rest_next, h]
              rfl
            have hothers := hread hless hs.tail (some_printable hch) hplace
            by_cases hspace : ch = ' '
            · subst hspace
              exact reads_space h (goesOn_writeFrom t hs) hothers
            · exact reads_char h hch hspace hquote hothers

end Written

/-- A scalar in single quotes is read back, up to the end of what was written. -/
theorem read_write {fold : Bool} {indent column : Nat} {s t : List Char} {c : Cursor}
    (hindent : 0 < indent) (hs : IsQuotable s) (ht : t.head? ≠ some '\'')
    (h : c.rest = write fold indent column s ++ t) :
    read c = some (s, c.forward (write fold indent column s).length) := by
  have hnext : c.next.rest = writeFrom fold indent (column + 1) none s ++ '\'' :: t := by
    rw [Cursor.rest_next, h]
    simp [write]
  have hread := reads_writeFrom hindent hs (by simp) ht hnext
  have hfuel : c.next.rest.length < c.rest.length + 1 := by
    rw [Cursor.rest_next, List.length_tail]
    omega
  rw [read, hread _ hfuel, ← Cursor.forward_one, ← Cursor.forward_add]
  simp [write, Nat.add_comm]

end SingleQuoted

namespace DoubleQuoted

def Reads (c : Cursor) (s : List Char) (after : Cursor) : Prop :=
  ∀ fuel, c.rest.length < fuel → readFrom fuel c = .ok (s, after)

/-- What is written stands for a text, in front of a rest. -/
def Spells (written s rest : List Char) : Prop :=
  ∀ (c : Cursor) (others : List Char) (after : Cursor), c.rest = written ++ rest →
    Reads (c.forward written.length) others after → Reads c (s ++ others) after

theorem Spells.append {written further s others rest : List Char}
    (h : Spells written s (further ++ rest)) (hfurther : Spells further others rest) :
    Spells (written ++ further) (s ++ others) rest := by
  intro c text after hc hread
  rw [List.append_assoc] at hc
  rw [List.append_assoc]
  refine h c _ after hc (hfurther _ _ after (Cursor.rest_forward_append hc) ?_)
  rwa [← Cursor.forward_add, ← List.length_append]

theorem spells_nil (rest : List Char) : Spells [] [] rest := by
  intro c others after _ hread
  exact hread

theorem spells_char {ch : Char} (rest : List Char) (hch : isPrintable ch = true)
    (hspace : ch ≠ ' ') (hquote : ch ≠ '"') (hslash : ch ≠ '\\') : Spells [ch] [ch] rest := by
  intro c others after hc hread fuel hfuel
  obtain ⟨fuel, rfl⟩ : ∃ f, fuel = f + 1 := ⟨fuel - 1, by omega⟩
  have hlength : c.next.rest.length < fuel := by
    rw [Cursor.rest_next, List.length_tail]
    have hpositive : 0 < c.rest.length := by simp [hc]
    omega
  have hseparating := isSeparating_of_isPrintable hch hspace
  have hrest : readFrom fuel c.next = .ok (others, after) := hread fuel hlength
  simp [readFrom, hc, hseparating, hrest, Functor.map, Except.map]

/-- An escape stands for what it is read as. -/
private theorem spells_of_readEscape {written s rest : List Char}
    (h : ∀ c : Cursor, c.rest = written ++ rest →
      readEscape c = .ok (s, c.forward written.length)) :
    Spells ('\\' :: written) s rest := by
  intro c others after hc hread fuel hfuel
  obtain ⟨fuel, rfl⟩ : ∃ f, fuel = f + 1 := ⟨fuel - 1, by omega⟩
  have hnext : c.next.rest = written ++ rest := by
    rw [Cursor.rest_next, hc]
    rfl
  have hlength : (c.forward ('\\' :: written).length).rest.length < fuel := by
    rw [Cursor.rest_forward, List.length_drop, List.length_cons]
    have hpositive : 0 < c.rest.length := by simp [hc]
    omega
  have hrest : readFrom fuel (c.next.forward written.length) = .ok (others, after) :=
    hread fuel hlength
  simp [readFrom, hc, h c.next hnext, hrest, bind, Except.bind, pure, Except.pure]

theorem spells_escaped_space (rest : List Char) : Spells ['\\', ' '] [' '] rest := by
  apply spells_of_readEscape
  intro c hc
  have hpeek : c.peek = some ' ' := by simp [Cursor.peek, hc]
  simp [readEscape, hpeek, meaning?, Cursor.forward]

/-- An escaped line end stands for nothing, nor does the indentation after it. -/
theorem spells_fold {ch : Char} {indent : Nat} (rest : List Char) (hindent : 0 < indent)
    (hch : isPrintable ch = true) (hspace : ch ≠ ' ') :
    Spells ('\\' :: newLine indent) [] (ch :: rest) := by
  refine spells_of_readEscape fun c hc => ?_
  have hline : c.rest = '\n' :: (List.replicate indent ' ' ++ ch :: rest) := hc
  have hpeek : c.peek = some '\n' := by simp [Cursor.peek, hline]
  have hnext : c.next.rest = List.replicate indent ' ' ++ ch :: rest := by
    rw [Cursor.rest_next, hline, List.tail_cons]
  have hbreaks := quotedBreaks_indent c.next.rest.length hnext hindent hch hspace
  have hmeaning : meaning? '\n' = none := by decide
  have hwidth : hexWidth? '\n' = none := by decide
  have hforward : c.next.forward indent = c.forward (newLine indent).length := by
    simp [newLine, Cursor.forward]
  simp only [readEscape, hpeek, hmeaning, hwidth, Cursor.lineEnd?_newline hline, hbreaks, required,
    hforward]

private theorem meaning?_of_letter {ch letter : Char}
    (h : letters.find? (·.1 == ch) = some (ch, letter)) : meaning? letter = some ch := by
  have hall : ∀ e ∈ letters, meaning? e.2 = some e.1 := by decide
  exact hall (ch, letter) (List.mem_of_find?_eq_some h)

/-- A letter that asks for a number of hexadecimal digits of a character's code. -/
private theorem spells_code {ch letter : Char} {width : Nat} (rest : List Char)
    (hmeaning : meaning? letter = none) (hletter : hexWidth? letter = some width)
    (hwidth : 0 < width) (hch : ch.toNat < Nat.pow 16 width) :
    Spells ('\\' :: letter :: upperHex width ch.toNat) [ch] rest := by
  have hlength : (upperHex width ch.toNat).length = width := by
    rw [upperHex, List.length_map, length_hexDigits hwidth hch]
  have hnumber : hexNumber? (upperHex width ch.toNat) = some ch.toNat := hexNumber?_hexDigits _ _
  refine spells_of_readEscape fun c hc => ?_
  have hpeek : c.peek = some letter := by simp [Cursor.peek, hc]
  have hnext : c.next.rest = upperHex width ch.toNat ++ rest := by
    rw [Cursor.rest_next, hc]
    rfl
  have hdigits : c.next.rest.take width = upperHex width ch.toNat := by
    rw [hnext, List.take_left' hlength]
  have hchar : charOf ch.toNat = .ok ch := by
    have hvalid : ch.toNat.isValidChar := ch.valid
    have hless : ch.toNat < 0x110000 := by
      rcases hvalid with h | h <;> omega
    simp [charOf, hvalid, Nat.not_le.mpr (show ch.toNat < 0x80000000 by omega),
      Nat.not_le.mpr hless]
  simp [readEscape, hpeek, hmeaning, hletter, hdigits, hlength, hnumber, hchar, required, bind,
    Except.bind, pure, Except.pure]

/-- The escape of a character stands for it. -/
theorem spells_escape (ch : Char) (rest : List Char) : Spells (escape ch) [ch] rest := by
  unfold escape
  split
  next key letter hfind =>
    obtain rfl : key = ch := by simpa using List.find?_some hfind
    apply spells_of_readEscape
    intro c hc
    have hpeek : c.peek = some letter := by simp [Cursor.peek, hc]
    simp [readEscape, hpeek, meaning?_of_letter hfind, Cursor.forward]
  next hfind =>
    simp only
    split
    next hless => exact spells_code rest (by decide) rfl (by decide) hless
    next =>
      split
      next hless => exact spells_code rest (by decide) rfl (by decide) hless
      next =>
        refine spells_code rest (by decide) rfl (by decide) ?_
        have hvalid : ch.toNat.isValidChar := ch.valid
        have hpower : Nat.pow 16 8 = 0x100000000 := rfl
        rcases hvalid with h | h <;> omega

private theorem readFrom_gap {c between : Cursor} {gap t : List Char} {ch : Char} {fuel : Nat}
    (h : c.rest = ch :: t) (hch : isSeparating ch = true) (hquote : ch ≠ '"') (hslash : ch ≠ '\\')
    (hgap : quotedGap c = some (gap, between)) :
    readFrom (fuel + 1) c =
      (readFrom fuel between).map fun found => (gap ++ found.1, found.2) := by
  cases hothers : readFrom fuel between <;>
    simp [readFrom, h, hch, hgap, hothers, required, bind, Except.bind, pure, Except.pure,
      Except.map]

private theorem map_eq_ok {α β : Type} {r : Except ReadError α} {f : α → β} {y : β}
    (h : r.map f = .ok y) : ∃ x, r = .ok x ∧ f x = y := by
  cases r with
  | error e => cases h
  | ok x => cases h; exact ⟨x, rfl, rfl⟩

/-- One space more in front of a text. Spaces that follow are taken with it at once. -/
theorem spells_space {rest : List Char} (hgoes : goesOn rest) : Spells [' '] [' '] rest := by
  intro c text after hc hread fuel hfuel
  obtain ⟨fuel, rfl⟩ : ∃ f, fuel = f + 1 := ⟨fuel - 1, by omega⟩
  have h : c.rest = ' ' :: rest := hc
  have hnext : c.next.rest = rest := by rw [Cursor.rest_next, h, List.tail_cons]
  have hlength : c.next.rest.length < fuel := by
    rw [hnext]
    rw [h, List.length_cons] at hfuel
    omega
  obtain ⟨spaces, ch, u, rfl, hspaces, hch, hne⟩ := hgoes
  have hgap := quotedGap_spaces (' ' :: spaces) h (by simpa using hspaces) hch hne
  rw [readFrom_gap h (by decide) (by decide) (by decide) hgap]
  cases spaces with
  | nil =>
      have hsame : readFrom fuel (c.forward [' '].length) = .ok (text, after) := hread fuel hlength
      rw [hsame]
      rfl
  | cons space others =>
      -- at the next space the reader takes the rest of this gap, and goes on at the same place
      obtain rfl : space = ' ' := hspaces space (by simp)
      have hshorter := quotedGap_spaces _ hnext hspaces hch hne
      have hsame : readFrom (fuel + 1) c.next = .ok (text, after) := hread (fuel + 1) (by
        have hplace : (c.forward [' '].length).rest = c.next.rest := rfl
        rw [hplace]
        omega)
      rw [readFrom_gap hnext (by decide) (by decide) (by decide) hshorter] at hsame
      obtain ⟨found, hfound, hend⟩ := map_eq_ok hsame
      have hplace : readFrom fuel (c.forward (' ' :: ' ' :: others).length) = .ok found := hfound
      rw [hplace]
      cases hend
      rfl

/-- What stands for itself between double quotes is printable. -/
theorem isPrintable_of_isBare {c : Char} (h : isBare c = true) :
    isPrintable c = true ∧ c ≠ '"' ∧ c ≠ '\\' := by
  simp only [isBare, Bool.and_eq_true, Bool.not_eq_true', Bool.or_eq_true, Bool.or_eq_false_iff,
    decide_eq_true_eq, decide_eq_false_iff_not] at h
  obtain ⟨⟨⟨⟨⟨⟨hquote, hslash⟩, hnext⟩, hline⟩, hparagraph⟩, hmark⟩, hrange⟩ := h
  have hallowed : isAllowed c = true := by
    simp only [isAllowed, Bool.or_eq_true, Bool.and_eq_true, decide_eq_true_eq, beq_iff_eq]
    omega
  have hfeed : c ≠ '\n' := by
    rintro rfl
    revert hrange
    decide
  exact ⟨isPrintable_of_isAllowed hallowed (by omega)
    (by simp [isBreak, hfeed, hnext, hline, hparagraph]) hmark, hquote, hslash⟩

private theorem escape_head (c : Char) : ∃ w, escape c = '\\' :: w := by
  unfold escape
  split
  · exact ⟨_, rfl⟩
  · simp only
    split
    · exact ⟨_, rfl⟩
    · split
      · exact ⟨_, rfl⟩
      · exact ⟨_, rfl⟩

section Written

variable {fold : Bool} {indent : Nat}

/-- After a space something printable is written on the same line. -/
private theorem goesOn_writeFrom {column : Nat} {s : List Char} {before : Option Char}
    (t : List Char) : goesOn (writeFrom fold indent column before s ++ '"' :: t) := by
  induction s generalizing column before with
  | nil => exact goesOn_of_printable (by decide) (by decide)
  | cons c rest ih =>
      have hslash (u : List Char) : goesOn ('\\' :: u) :=
        goesOn_of_printable (by decide) (by decide)
      simp only [writeFrom]
      by_cases hbare : isBare c = true
      · rw [if_pos hbare]
        split
        · unfold foldLine
          split <;> exact hslash _
        · by_cases hspace : c = ' '
          · subst hspace
            exact goesOn_space ih
          · exact goesOn_of_printable (isPrintable_of_isBare hbare).1 hspace
      · rw [if_neg hbare]
        obtain ⟨w, hw⟩ := escape_head c
        split
        · rw [hw]
          exact hslash _
        · rw [hw]
          exact hslash _

private theorem spells_foldSpace (rest : List Char) (hindent : 0 < indent) :
    Spells ('\\' :: newLine indent ++ ['\\', ' ']) [' '] rest :=
  (spells_fold (' ' :: rest) hindent (by decide) (by decide)).append (spells_escaped_space rest)

/-- The next character that is written. -/
private theorem writeFrom_head (fold : Bool) (indent column : Nat) (before : Option Char)
    (rest : List Char) {c : Char} (hspace : c ≠ ' ') :
    ∃ d w, writeFrom fold indent column before (c :: rest) = d :: w ∧ isPrintable d = true ∧
      d ≠ ' ' := by
  have hnotSpace : ¬ some c = some ' ' := by simpa using hspace
  by_cases hbare : isBare c = true
  · simp only [writeFrom, if_pos hbare, foldLine, if_neg hnotSpace]
    split
    · exact ⟨'\\', _, rfl, by decide, by decide⟩
    · exact ⟨c, _, rfl, (isPrintable_of_isBare hbare).1, hspace⟩
  · obtain ⟨w, hw⟩ := escape_head c
    simp only [writeFrom, if_neg hbare, hw]
    split
    · exact ⟨'\\', _, rfl, by decide, by decide⟩
    · exact ⟨'\\', _, rfl, by decide, by decide⟩

private theorem writeFrom_space {column : Nat} {before : Option Char} (rest : List Char)
    (hcolumn : column ≤ bestWidth ∨ rest = []) :
    writeFrom fold indent column before (' ' :: rest) =
      ' ' :: writeFrom fold indent (column + 1) (some ' ') rest := by
  have hbare : isBare ' ' = true := by decide
  have hline : ¬ (fold && before.isSome && !rest.isEmpty &&
      (decide (' ' = ' ') || (before.map fun b => !isBare b).getD false) && column > bestWidth) =
      true := by
    rcases hcolumn with hcolumn | rfl
    · simp only [Bool.and_eq_true, decide_eq_true_eq, not_and]
      omega
    · simp
  simp only [writeFrom, if_pos hbare]
  rw [if_neg (by simpa using hline)]

/-- Whether a character that is written as an escape stands in a text before a space that something
follows. -/
def holdsEscapedSpace (s : List Char) : Bool :=
  Analysis.anyPair (fun c => !isBare c) Analysis.isSpace s.dropLast

private theorem holdsEscapedSpace_tail {c : Char} {s : List Char}
    (h : holdsEscapedSpace (c :: s) = false) : holdsEscapedSpace s = false := by
  unfold holdsEscapedSpace at h ⊢
  cases s with
  | nil => rfl
  | cons d s =>
      rw [List.dropLast_cons_of_ne_nil (by simp)] at h
      exact SingleQuoted.IsQuotable.anyPair_tail h

/-- Whether folded lines of a text are read back: unless the indentation alone passes the best
width, or else no line is folded after an escape and before a space. There the space is written on
the next line after a backslash, but that line is folded once more before the space, and its
backslash becomes the escape of the one that ends it. -/
def FoldsWell (fold : Bool) (indent : Nat) (s : List Char) : Prop :=
  fold = true → indent < bestWidth ∨ holdsEscapedSpace s = false

private theorem FoldsWell.tail {c : Char} {s : List Char} (h : FoldsWell fold indent (c :: s)) :
    FoldsWell fold indent s := fun hfold => (h hfold).imp_right holdsEscapedSpace_tail

section Step

variable {c : Char} {rest t : List Char} {column : Nat} {before : Option Char}

/-- A character written as it is, before a rest that is spelled wherever it is written. -/
private theorem spells_bare (hindent : 0 < indent) (hbare : isBare c = true)
    (hnext : ∀ column, Spells (writeFrom fold indent column (some c) rest) rest ('"' :: t)) :
    Spells (writeFrom fold indent column before (c :: rest)) (c :: rest) ('"' :: t) := by
  obtain ⟨hprintable, hquote, hslash⟩ := isPrintable_of_isBare hbare
  simp only [writeFrom, if_pos hbare]
  split
  next hfold =>
    by_cases hspace : c = ' '
    · subst hspace
      simp only [foldLine, if_pos]
      have hall := (spells_foldSpace _ hindent).append (hnext (indent + 1 + 1))
      simpa using hall
    · have hnotSpace : ¬ some c = some ' ' := by simpa using hspace
      simp only [foldLine, if_neg hnotSpace]
      have hline := spells_fold (writeFrom fold indent (indent + 1) (some c) rest ++ '"' :: t)
        hindent hprintable hspace
      have hall := hline.append
        ((spells_char _ hprintable hspace hquote hslash).append (hnext (indent + 1)))
      simpa using hall
  next =>
    by_cases hspace : c = ' '
    · subst hspace
      have hgoes : goesOn (writeFrom fold indent (column + 1) (some ' ') rest ++ '"' :: t) :=
        goesOn_writeFrom t
      exact (spells_space hgoes).append (hnext (column + 1))
    · exact (spells_char _ hprintable hspace hquote hslash).append (hnext (column + 1))

/-- A character written as an escape. If the line is folded after it and a space follows, the
backslash of the space is written now and the space with what follows. -/
private theorem spells_escaped (hindent : 0 < indent) (hbare : ¬ isBare c = true)
    (hfolds : before.isSome = true → FoldsWell fold indent (c :: rest))
    (hnext : ∀ column, Spells (writeFrom fold indent column (some c) rest) rest ('"' :: t))
    (hafter : ∀ others, rest = ' ' :: others → ∀ column,
      Spells (writeFrom fold indent column (some ' ') others) others ('"' :: t)) :
    Spells (writeFrom fold indent column before (c :: rest)) (c :: rest) ('"' :: t) := by
  simp only [writeFrom, if_neg hbare]
  split
  next hfold =>
    simp only [Bool.and_eq_true] at hfold
    obtain ⟨⟨⟨rfl, hsome⟩, hfilled⟩, -⟩ := hfold
    cases rest with
    | nil => cases hfilled
    | cons d others =>
      by_cases hspace : d = ' '
      · subst hspace
        have hroom : indent + 1 ≤ bestWidth ∨ others = [] := by
          rcases hfolds hsome rfl with hless | hnone
          · exact Or.inl hless
          · cases others with
            | nil => exact Or.inr rfl
            | cons e others => simp [holdsEscapedSpace, Analysis.anyPair, hbare, Analysis.isSpace]
                at hnone
        have hall := (spells_escape c _).append ((spells_foldSpace _ hindent).append
          (hafter others rfl (indent + 1 + 1)))
        simpa [foldLine, writeFrom_space others hroom] using hall
      · obtain ⟨e, w, hw, he, hne⟩ := writeFrom_head true indent indent (some c) others hspace
        have hline := spells_fold (w ++ '"' :: t) hindent he hne
        have hmore := hnext indent
        rw [hw] at hmore
        have hall := (spells_escape c _).append (hline.append hmore)
        simpa [foldLine, hspace, hw] using hall
  next => exact (spells_escape c _).append (hnext _)

end Step

/-- What stands between the quotes spells the text. Nothing is folded after its first character, so
what the first one is does not matter. -/
theorem spells_writeFrom {s : List Char} {column : Nat} {before : Option Char} (t : List Char)
    (hindent : 0 < indent)
    (hfolds : FoldsWell fold indent (if before.isSome then s else s.tail)) :
    Spells (writeFrom fold indent column before s) s ('"' :: t) := by
  -- on the length, as an escape before a folded space is followed by what is left after the space
  induction hlength : s.length using Nat.strongRecOn generalizing s column before with
  | ind length ih =>
    cases s with
    | nil => exact spells_nil _
    | cons c rest =>
      have hrest : FoldsWell fold indent rest := by
        cases before with
        | none => exact hfolds
        | some b => exact FoldsWell.tail hfolds
      have hnext (column : Nat) :
          Spells (writeFrom fold indent column (some c) rest) rest ('"' :: t) :=
        ih rest.length (by simp [← hlength]) hrest rfl
      by_cases hbare : isBare c = true
      · exact spells_bare hindent hbare hnext
      · refine spells_escaped hindent hbare (fun hsome => by rwa [if_pos hsome] at hfolds) hnext
          fun others heq column => ?_
        subst heq
        refine ih others.length ?_ hrest.tail rfl
        rw [← hlength]
        simp only [List.length_cons]
        omega

end Written

theorem reads_end {c : Cursor} {t : List Char} (h : c.rest = '"' :: t) : Reads c [] c.next := by
  intro fuel hfuel
  obtain ⟨fuel, rfl⟩ : ∃ f, fuel = f + 1 := ⟨fuel - 1, by omega⟩
  simp [readFrom, h]

/-- A scalar in double quotes is read back, up to the end of what was written. -/
theorem read_write {fold : Bool} {indent column : Nat} {s t : List Char} {c : Cursor}
    (hindent : 0 < indent) (hfolds : FoldsWell fold indent s.tail)
    (h : c.rest = write fold indent column s ++ t) :
    read c = .ok (s, c.forward (write fold indent column s).length) := by
  have hnext : c.next.rest = writeFrom fold indent (column + 1) none s ++ '"' :: t := by
    rw [Cursor.rest_next, h]
    simp [write]
  have hend := reads_end (Cursor.rest_forward_append hnext)
  have hread := spells_writeFrom t hindent hfolds c.next [] _ hnext hend
  have hfuel : c.next.rest.length < c.rest.length + 1 := by
    rw [Cursor.rest_next, List.length_tail]
    omega
  rw [read, hread _ hfuel, ← Cursor.forward_one, ← Cursor.forward_one, ← Cursor.forward_add,
    ← Cursor.forward_add]
  simp [write, Nat.add_comm]

end DoubleQuoted

end FunctionPipeline.Yaml

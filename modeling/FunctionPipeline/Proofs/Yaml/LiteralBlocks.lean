import FunctionPipeline.Yaml.ScalarReader
import FunctionPipeline.Proofs.Yaml.Cursors

/-!
Literal blocks are read back. Each line that is not empty is indented, so the reader finds the lines
by their column; blank lines it takes for themselves, and what follows the block is less indented.
The indicators say what the reader cannot see: leading blanks, and how many line ends belong to the
end of the text.
-/

namespace FunctionPipeline.Yaml

/-- Whether the first line of a text is no blank line and has at most so many spaces in front; an
empty text has no line. -/
structure Outdented (limit : Nat) (t : List Char) : Prop where
  spaces : (t.takeWhile (· = ' ')).length ≤ limit
  goes : Goes t

theorem Outdented.mono {m n : Nat} {t : List Char} (h : Outdented m t) (hle : m ≤ n) :
    Outdented n t := ⟨Nat.le_trans h.spaces hle, h.goes⟩

def IsLined (s : List Char) : Prop := ∀ c ∈ s, isKeptBreak c = true ∨ isPrintable c = true

theorem isLined_nil : IsLined [] := fun _ h => by cases h

theorem isLined_of_all {s : List Char}
    (h : s.all (fun c => isKeptBreak c || isPrintable c) = true) : IsLined s :=
  fun c hc => by simpa using List.all_eq_true.mp h c hc

theorem isLined_of_printable {s : List Char} (h : ∀ c ∈ s, isPrintable c = true) : IsLined s :=
  fun c hc => Or.inr (h c hc)

theorem AreBreaks.isLined {bs : List Char} (h : AreBreaks bs) : IsLined bs :=
  fun b hb => Or.inl (h b hb)

theorem IsLined.append {u w : List Char} (hu : IsLined u) (hw : IsLined w) : IsLined (u ++ w) :=
  fun c hc => (List.mem_append.mp hc).elim (hu c) (hw c)

theorem IsLined.cons {c : Char} {w : List Char} (hc : isKeptBreak c = true ∨ isPrintable c = true)
    (hw : IsLined w) : IsLined (c :: w) := by
  intro d hd
  rcases List.mem_cons.mp hd with rfl | hmem
  · exact hc
  · exact hw d hmem

theorem isLined_spaces (n : Nat) : IsLined (List.replicate n ' ') := fun c hc => by
  rw [List.eq_of_mem_replicate hc]
  exact Or.inr (by decide)

def IsUnended (u : List Char) : Prop := ∀ c, u.getLast? = some c → isPrintable c = true

theorem IsUnended.tail {c : Char} {u : List Char} (h : IsUnended (c :: u)) : IsUnended u := by
  intro d hd
  cases u with
  | nil => cases hd
  | cons e u => exact h d (by rwa [List.getLast?_cons_of_ne_nil (by simp)])

/-- Line ends in front of a text, up to its first line that is not empty. -/
theorem exists_lineEnds {s : List Char} (hs : IsLined s) :
    ∃ bs rest, s = bs ++ rest ∧ AreBreaks bs ∧
      ∀ d, rest.head? = some d → isPrintable d = true := by
  induction s with
  | nil => exact ⟨[], [], rfl, fun _ h => (by cases h), fun _ h => (by cases h)⟩
  | cons c s ih =>
      rcases hs c (by simp) with hc | hc
      · obtain ⟨bs, rest, rfl, hbs, hrest⟩ := ih fun d hd => hs d (by simp [hd])
        exact ⟨c :: bs, rest, rfl, AreBreaks.cons_iff.mpr ⟨hc, hbs⟩, hrest⟩
      · exact ⟨[], c :: s, rfl, fun _ h => (by cases h), fun d hd => by cases hd; exact hc⟩

theorem not_isPrintable_of_isKeptBreak {b : Char} (h : isKeptBreak b = true) :
    isPrintable b = false := by
  simp [isPrintable, isLineEnd, isBreak_of_isKeptBreak h]

/-- Line ends in front of a text whose last line has not ended. -/
theorem exists_breaks {s : List Char} (hs : IsLined s) (hlast : IsUnended s) (hnonempty : s ≠ []) :
    ∃ bs ch rest, s = bs ++ ch :: rest ∧ AreBreaks bs ∧ isPrintable ch = true ∧
      IsLined (ch :: rest) ∧ IsUnended (ch :: rest) := by
  obtain ⟨bs, rest, rfl, hbs, hrest⟩ := exists_lineEnds hs
  cases rest with
  | nil =>
      rw [List.append_nil] at hlast hnonempty
      have hprintable := hlast _ (List.getLast?_eq_some_getLast hnonempty)
      rw [not_isPrintable_of_isKeptBreak (hbs _ (List.getLast_mem hnonempty))] at hprintable
      cases hprintable
  | cons ch rest =>
      refine ⟨bs, ch, rest, rfl, hbs, hrest ch rfl,
        fun c hc => hs c (by simp [List.mem_cons.mp hc]), fun c hc => hlast c ?_⟩
      rw [List.getLast?_append, hc]
      rfl

/-- The line ends at the end of a text. -/
theorem exists_trailing {s : List Char} (hs : IsLined s) :
    ∃ u bs, s = u ++ bs ∧ AreBreaks bs ∧ IsLined u ∧ IsUnended u := by
  induction s with
  | nil => exact ⟨[], [], rfl, fun _ h => (by cases h), hs, fun _ h => (by cases h)⟩
  | cons c s ih =>
      obtain ⟨u, bs, rfl, hbs, hu, hlast⟩ := ih fun d hd => hs d (by simp [hd])
      by_cases hline : u = [] ∧ isPrintable c = false
      · obtain ⟨rfl, hc⟩ := hline
        have hbreak := (hs c (by simp)).resolve_right (by simp [hc])
        exact ⟨[], c :: bs, rfl, AreBreaks.cons_iff.mpr ⟨hbreak, hbs⟩, hu, hlast⟩
      · refine ⟨c :: u, bs, rfl, hbs, hu.cons (hs c (by simp)), fun d hd => ?_⟩
        cases u with
        | nil =>
            cases hd
            simpa using hline
        | cons e u => exact hlast d (by rwa [List.getLast?_cons_of_ne_nil (by simp)] at hd)

namespace Literal

variable {indent : Nat} {t : List Char}

theorem writeLines_break (atStart : Bool) {b : Char} (hb : isKeptBreak b = true) (s : List Char) :
    writeLines indent atStart (b :: s) = b :: writeLines indent true s := by
  simp [writeLines, isBreak_of_isKeptBreak hb]

theorem writeLines_breaks {bs : List Char} (hbs : AreBreaks bs) (s : List Char) :
    writeLines indent true (bs ++ s) = bs ++ writeLines indent true s := by
  induction bs with
  | nil => rfl
  | cons b bs ih =>
      obtain ⟨hb, hmore⟩ := AreBreaks.cons_iff.mp hbs
      rw [List.cons_append, writeLines_break true hb, ih hmore, List.cons_append]

/-- Line ends that are all of a text are written for themselves. -/
theorem writeLines_areBreaks {bs : List Char} (hbs : AreBreaks bs) :
    writeLines indent true bs = bs := by
  have hwritten : writeLines indent true (bs ++ []) = bs ++ writeLines indent true [] :=
    writeLines_breaks hbs []
  simpa [writeLines] using hwritten

theorem writeLines_char {c : Char} (s : List Char) (hc : isPrintable c = true) :
    writeLines indent false (c :: s) = c :: writeLines indent false s := by
  simp [writeLines, isBreak_of_isPrintable hc]

/-- Blank lines are written for themselves, and the next line with its indentation. -/
theorem writeLines_blank {bs : List Char} (hbs : AreBreaks bs) {c : Char} (s : List Char)
    (hc : isPrintable c = true) :
    writeLines indent true (bs ++ c :: s) =
      bs ++ (List.replicate indent ' ' ++ c :: writeLines indent false s) := by
  rw [writeLines_breaks hbs]
  simp [writeLines, isBreak_of_isPrintable hc]

end Literal

namespace Block

variable {indent : Nat} {t bs : List Char}

/-- Line ends in front of a place that is no line end are taken with the spaces up to the column of
the block. -/
theorem blockBreaks_breaks (indent : Nat) {c : Cursor} {fuel : Nat} {rest : List Char}
    (hbs : AreBreaks bs) (h : c.rest = bs ++ rest) (hcolumn : c.column = 0)
    (hfuel : bs.length < fuel)
    (hrest : ∀ ch, (rest.drop ((rest.take indent).takeWhile (· = ' ')).length).head? = some ch →
      isLineEnd ch = false) :
    blockBreaks indent fuel c =
      (bs, (c.forward bs.length).forward ((rest.take indent).takeWhile (· = ' ')).length) := by
  induction bs generalizing c fuel with
  | nil =>
      obtain ⟨fuel, rfl⟩ : ∃ f, fuel = f + 1 := ⟨fuel - 1, by omega⟩
      simp only [List.nil_append] at h
      have hend : (c.forward ((rest.take indent).takeWhile (· = ' ')).length).lineEnd? = none :=
        Cursor.lineEnd?_of_not fun ch hch => by
          rw [Cursor.rest_forward, h] at hch
          exact hrest ch hch
      simp only [blockBreaks, h, hcolumn, Nat.sub_zero, hend]
      rfl
  | cons b bs ih =>
      obtain ⟨hb, hmore⟩ := AreBreaks.cons_iff.mp hbs
      rw [List.length_cons] at hfuel
      obtain ⟨fuel, rfl⟩ : ∃ f, fuel = f + 1 := ⟨fuel - 1, by omega⟩
      have hline : c.rest = b :: (bs ++ rest) := h
      have hnext := Cursor.next_break hline hb
      have hspace : b ≠ ' ' := by
        rintro rfl
        cases hb
      have htaken : (c.rest.take (indent - c.column)).takeWhile (· = ' ') = [] := by
        rw [hline]
        cases indent - c.column <;> simp [hspace]
      have hothers := ih hmore (c := c.next) (by rw [hnext]) (by rw [hnext])
        (show bs.length < fuel by omega)
      simp only [blockBreaks, htaken, List.length_nil, Cursor.forward,
        Cursor.lineEnd?_break hline hb, hothers]
      rfl

private theorem forward_breaks {c : Cursor} {rest : List Char} (hbs : AreBreaks bs)
    (h : c.rest = bs ++ rest) (hcolumn : c.column = 0) :
    c.forward bs.length = ⟨rest, c.index + bs.length, c.line + bs.length, 0⟩ := by
  induction bs generalizing c with
  | nil =>
      obtain ⟨text, index, line, column⟩ := c
      simp only [List.nil_append] at h
      simp only at hcolumn
      subst h hcolumn
      rfl
  | cons b bs ih =>
      obtain ⟨hb, hmore⟩ := AreBreaks.cons_iff.mp hbs
      have hline : c.rest = b :: (bs ++ rest) := h
      have hnext := Cursor.next_break hline hb
      rw [List.length_cons, Cursor.forward, ih hmore (by rw [hnext]) (by rw [hnext]), hnext]
      simp only [Cursor.mk.injEq, true_and, and_true]
      omega

/-- Blank lines before another line of the block. -/
theorem blockBreaks_line (fuel : Nat) {c : Cursor} {ch : Char} {rest : List Char}
    (hbs : AreBreaks bs) (h : c.rest = bs ++ (List.replicate indent ' ' ++ ch :: rest))
    (hcolumn : c.column = 0) (hch : isPrintable ch = true) (hfuel : bs.length < fuel) :
    blockBreaks indent fuel c =
      (bs, ⟨ch :: rest, c.index + bs.length + indent, c.line + bs.length, indent⟩) := by
  have htaken : (((List.replicate indent ' ' ++ ch :: rest).take indent).takeWhile
      (· = ' ')).length = indent := by
    rw [List.take_left' List.length_replicate, List.takeWhile_replicate]
    simp
  have hbreaks := blockBreaks_breaks indent hbs h hcolumn hfuel fun d hd => by
    rw [htaken, List.drop_left' List.length_replicate] at hd
    cases hd
    exact isLineEnd_of_isPrintable hch
  have hplace := forward_breaks hbs h hcolumn
  have hrest : (c.forward bs.length).rest = List.replicate indent ' ' ++ ch :: rest := by
    rw [hplace]
  have hspaces := Cursor.forward_printable hrest fun d hd => by
    rw [List.eq_of_mem_replicate hd]
    decide
  rw [List.length_replicate] at hspaces
  rw [hbreaks, htaken, hspaces, hplace]
  simp

/-- Blank lines before the end of the block. -/
theorem blockBreaks_end (fuel : Nat) {c : Cursor} {limit : Nat} (hbs : AreBreaks bs)
    (h : c.rest = bs ++ t) (hcolumn : c.column = 0) (ht : Outdented limit t)
    (hlimit : limit < indent) (hfuel : bs.length < fuel) :
    blockBreaks indent fuel c =
      (bs, Cursor.skipSpaces ⟨t, c.index + bs.length, c.line + bs.length, 0⟩) := by
  have htaken : (t.take indent).takeWhile (· = ' ') = t.takeWhile (· = ' ') := by
    have hspaces := ht.spaces
    rw [← List.take_takeWhile, List.take_of_length_le (by omega)]
  have hdropped : t.drop (t.takeWhile (· = ' ')).length = t.dropWhile (· = ' ') := by
    have hsplit : t.takeWhile (· = ' ') ++ t.dropWhile (· = ' ') = t :=
      List.takeWhile_append_dropWhile
    rw [← hsplit, List.drop_left' (by rw [hsplit]), hsplit]
  have hbreaks := blockBreaks_breaks indent hbs h hcolumn hfuel fun d hd => by
    rw [htaken, hdropped] at hd
    exact isLineEnd_of_isPrintable (ht.goes d hd).1
  rw [hbreaks, htaken, forward_breaks hbs h hcolumn]
  rfl

/-- One character of a line more. -/
private theorem readLines_char {c : Cursor} {ch : Char} {rest breaks : List Char} {fuel : Nat}
    (h : c.rest = ch :: rest) (hch : isPrintable ch = true) :
    readLines false indent (fuel + 1) breaks c =
      readLines false indent (fuel + 1) (breaks ++ [ch]) c.next := by
  have hnext : c.next.rest = rest := by rw [Cursor.rest_next, h, List.tail_cons]
  have htaken : c.takeWhile (fun d => !isLineEnd d) =
      (ch :: (c.next.takeWhile fun d => !isLineEnd d).1,
        (c.next.takeWhile fun d => !isLineEnd d).2) := by
    simp [Cursor.takeWhile, h, hnext, isLineEnd_of_isPrintable hch, Cursor.forward]
  simp only [readLines, htaken]
  split
  · simp
  · simp [between]

/-- No character of the line is left before its end. -/
private theorem takeWhile_break {c : Cursor} {b : Char} {rest : List Char}
    (h : c.rest = b :: rest) (hb : isKeptBreak b = true) :
    c.takeWhile (fun d => !isLineEnd d) = ([], c) :=
  Cursor.takeWhile_none fun d hd => by
    rw [h] at hd
    cases hd
    simp [isLineEnd, isBreak_of_isKeptBreak hb]

/-- The end of a line before another one. -/
private theorem readLines_line {c : Cursor} {b ch : Char} {fuel : Nat} {rest breaks : List Char}
    (hb : isKeptBreak b = true) (hbs : AreBreaks bs)
    (h : c.rest = b :: (bs ++ (List.replicate indent ' ' ++ ch :: rest)))
    (hch : isPrintable ch = true) :
    readLines false indent (fuel + 1) breaks c =
      let others := readLines false indent fuel bs
        ⟨ch :: rest, c.index + 1 + bs.length + indent, c.line + 1 + bs.length, indent⟩
      (breaks ++ b :: others.1, others.2) := by
  have hnext := Cursor.next_break h hb
  have hbreaks := blockBreaks_line (c.next.rest.length + 1) (c := c.next) hbs (by rw [hnext])
    (by rw [hnext]) hch (by rw [hnext]; simp only [List.length_append]; omega)
  rw [hnext] at hbreaks
  simp only [readLines, takeWhile_break h hb, Cursor.lineEnd?_break h hb, hnext, hbreaks]
  simp [between]

/-- The end of the last line. -/
private theorem readLines_end {c : Cursor} {b : Char} {fuel limit : Nat} {breaks : List Char}
    (hb : isKeptBreak b = true) (hbs : AreBreaks bs) (h : c.rest = b :: (bs ++ t))
    (ht : Outdented limit t) (hlimit : limit < indent) :
    readLines false indent (fuel + 1) breaks c =
      (breaks, some b, bs,
        Cursor.skipSpaces ⟨t, c.index + 1 + bs.length, c.line + 1 + bs.length, 0⟩) := by
  have hnext := Cursor.next_break h hb
  have hbreaks := blockBreaks_end (c.next.rest.length + 1) (c := c.next) hbs (by rw [hnext])
    (by rw [hnext]) ht hlimit (by rw [hnext]; simp only [List.length_append]; omega)
  have hcolumn : (Cursor.skipSpaces ⟨t, c.index + 1 + bs.length, c.line + 1 + bs.length,
      0⟩).column ≠ indent := by
    have hspaces := ht.spaces
    rw [Cursor.skipSpaces_eq]
    simp only
    omega
  rw [hnext] at hbreaks
  simp only [readLines, takeWhile_break h hb, Cursor.lineEnd?_break h hb, hnext, hbreaks]
  simp [hcolumn]

/-- The end that a last line has where it is written: its own one, or a line feed. -/
def lastEnd (bs : List Char) : Char := bs.headD '\n'

/-- The end of the last line, with all line ends after it. -/
private theorem writeLines_end (hbs : AreBreaks bs) :
    Literal.writeLines indent false bs = lastEnd bs :: bs.tail ∧ isKeptBreak (lastEnd bs) = true ∧
      AreBreaks bs.tail := by
  cases bs with
  | nil => exact ⟨rfl, by decide, hbs⟩
  | cons b bs =>
      obtain ⟨hb, hmore⟩ := AreBreaks.cons_iff.mp hbs
      refine ⟨?_, hb, hmore⟩
      rw [Literal.writeLines_break false hb, Literal.writeLines_areBreaks hmore]
      rfl

/-- The lines of a text are read up to its last line end, which is told from those after it. -/
theorem readLines_writeLines {u breaks : List Char} {fuel limit : Nat} {c : Cursor}
    (hu : IsLined u) (hlast : IsUnended u) (hbs : AreBreaks bs) (ht : Outdented limit t)
    (hlimit : limit < indent) (hfuel : c.rest.length < fuel)
    (h : c.rest = Literal.writeLines indent false (u ++ bs) ++ t) :
    ∃ i l, c.line < l ∧ readLines false indent fuel breaks c =
      (breaks ++ u, some (lastEnd bs), bs.tail, Cursor.skipSpaces ⟨t, i, l, 0⟩) := by
  induction hlength : u.length using Nat.strongRecOn generalizing u breaks c fuel with
  | ind length ih =>
    obtain ⟨fuel, rfl⟩ : ∃ f, fuel = f + 1 := ⟨fuel - 1, by omega⟩
    cases u with
    | nil =>
      obtain ⟨hwritten, hb, hmore⟩ := @writeLines_end indent bs hbs
      rw [List.nil_append, hwritten] at h
      refine ⟨_, _, ?_, by simpa using readLines_end hb hmore h ht hlimit⟩
      omega
    | cons ch u =>
      have hmore : IsLined u := fun d hd => hu d (by simp [hd])
      -- a line end is read with the blank lines after it, so this case goes on past all of them
      rcases hu ch (by simp) with hbreak | hch
      · have hnonempty : u ≠ [] := by
          rintro rfl
          have hprintable := hlast ch rfl
          rw [not_isPrintable_of_isKeptBreak hbreak] at hprintable
          cases hprintable
        obtain ⟨before, d, others, rfl, hbefore, hd, hothers, hend⟩ :=
          exists_breaks hmore hlast.tail hnonempty
        rw [List.cons_append, List.append_assoc, List.cons_append,
          Literal.writeLines_break false hbreak, Literal.writeLines_blank hbefore _ hd] at h
        simp only [List.cons_append, List.append_assoc] at h
        have hshorter : (d :: others).length < length := by
          rw [← hlength]
          simp only [List.length_cons, List.length_append]
          omega
        obtain ⟨i, l, hl, hread⟩ := @ih _ hshorter (d :: others) before fuel
          ⟨d :: (Literal.writeLines indent false (others ++ bs) ++ t),
            c.index + 1 + before.length + indent, c.line + 1 + before.length, indent⟩ hothers hend
          (by simp [h] at hfuel ⊢; omega) (by simp [Literal.writeLines_char _ hd]) rfl
        refine ⟨i, l, ?_, ?_⟩
        · exact Nat.lt_trans (by simp only; omega) hl
        · rw [readLines_line hbreak hbefore h hd, hread]
      · have hline : c.rest = ch :: (Literal.writeLines indent false (u ++ bs) ++ t) := by
          simpa [Literal.writeLines_char _ hch] using h
        have hnext := Cursor.next_printable hline hch
        have hfuel' : c.next.rest.length < fuel + 1 := by
          rw [Cursor.rest_next, List.length_tail]
          omega
        obtain ⟨i, l, hl, hread⟩ := @ih u.length (by rw [← hlength]; simp) u (breaks ++ [ch])
          (fuel + 1) c.next hmore hlast.tail hfuel' (by rw [hnext]) rfl
        refine ⟨i, l, ?_, ?_⟩
        · rw [hnext] at hl
          exact hl
        · rw [readLines_char hline hch, hread]
          simp

def Chomping.mark : Chomping → List Char
  | .strip => ['-']
  | .clip => []
  | .keep => ['+']

/-- The chomping of a text that ends with so many line ends after its last line, if it has one. -/
def chompingOf (hasLine : Bool) : Nat → Chomping
  | 0 => .strip
  | 1 => if hasLine then .clip else .keep
  | _ => .keep

def leads (s : List Char) : Bool := (s.head?.map fun c => c = ' ' || isBreak c).getD false

private theorem of_not_leads {d : Char} {others : List Char} (hbs : AreBreaks bs)
    (h : leads (bs ++ d :: others) = false) : bs = [] ∧ d ≠ ' ' := by
  cases bs with
  | nil =>
      refine ⟨rfl, ?_⟩
      rintro rfl
      cases h
  | cons b bs => simp [leads, isBreak_of_isKeptBreak (AreBreaks.cons_iff.mp hbs).1] at h

private theorem lead_eq (s : List Char) :
    (match s.head? with
      | some c => if c = ' ' || isBreak c then ['2'] else []
      | none => []) = if leads s then ['2'] else [] := by
  cases s <;> rfl

private theorem chomp_eq {u : List Char} (hlast : IsUnended u) (hbs : AreBreaks bs)
    (hnonempty : u ++ bs ≠ []) :
    (match (u ++ bs).reverse with
      | [] => []
      | c :: rest =>
          if !isBreak c then ['-']
          else
            match rest with
            | [] => ['+']
            | b :: _ => if isBreak b then ['+'] else []) =
      (chompingOf (!u.isEmpty) bs.length).mark := by
  have hbreak (b : Char) (before : List Char) (h : u.reverse = b :: before) :
      isBreak b = false := by
    have heq : u.getLast? = some b := by rw [← List.head?_reverse, h]; rfl
    exact isBreak_of_isPrintable (hlast b heq)
  have hempty : u.isEmpty = u.reverse.isEmpty := by simp
  have hall : ∀ b ∈ bs.reverse, isBreak b = true := fun b hb =>
    isBreak_of_isKeptBreak (hbs b (List.mem_reverse.mp hb))
  rw [List.reverse_append, hempty, ← List.length_reverse]
  match hends : bs.reverse with
  | [] =>
      have hnone : bs = [] := by simpa using hends
      cases h : u.reverse with
      | nil => simp_all
      | cons b before => simp [hbreak b before h, chompingOf, Chomping.mark]
  | [b] =>
      rw [hends] at hall
      have hb := hall b (by simp)
      cases h : u.reverse with
      | nil => simp [hb, chompingOf, Chomping.mark]
      | cons e before => simp [hbreak e before h, hb, chompingOf, Chomping.mark]
  | b :: d :: others =>
      rw [hends] at hall
      simp [hall b (by simp), hall d (by simp), chompingOf, Chomping.mark]

/-- The indicators that are written for a text. -/
theorem hints_eq {u : List Char} (hlast : IsUnended u) (hbs : AreBreaks bs)
    (hnonempty : u ++ bs ≠ []) :
    Literal.hints (u ++ bs) =
      (if leads (u ++ bs) then ['2'] else []) ++ (chompingOf (!u.isEmpty) bs.length).mark := by
  rw [Literal.hints]
  exact congr (congrArg (· ++ ·) (lead_eq (u ++ bs))) (chomp_eq hlast hbs hnonempty)

private theorem indicators_marks {c : Cursor} {lead : Bool} {k : Chomping} {rest : List Char}
    (h : c.rest = (if lead then ['2'] else []) ++ k.mark ++ '\n' :: rest) :
    indicators c = some (k, if lead then some 2 else none,
      c.forward ((if lead then ['2'] else []) ++ k.mark).length) := by
  cases lead <;> cases k <;>
    simp [indicators, h, Chomping.mark, Cursor.peek, chomping?, increment?, Cursor.rest_next,
      endsLine, isLineEnd, isBreak, Cursor.forward]

private theorem restOfLine_newline {c : Cursor} {rest : List Char} (h : c.rest = '\n' :: rest) :
    restOfLine c = some ⟨rest, c.index + 1, c.line + 1, 0⟩ := by
  have hspaces : c.skipSpaces = c := by
    rw [Cursor.skipSpaces_eq, h]
    obtain ⟨text, index, line, column⟩ := c
    simp only at h
    subst h
    rfl
  have hpeek : c.peek = some '\n' := by rw [Cursor.peek, h]; rfl
  simp [restOfLine, hspaces, hpeek, endsLine, isLineEnd, isBreak, Cursor.lineEnd?_newline h,
    Cursor.next_newline h]

/-- The first line of a block, when no blank lines stand in front of it. -/
private theorem leadingLines_line {ch : Char} {rest : List Char} {c : Cursor} (fuel : Nat)
    (h : c.rest = List.replicate indent ' ' ++ ch :: rest) (hcolumn : c.column = 0)
    (hch : isPrintable ch = true) (hspace : ch ≠ ' ') :
    leadingLines (fuel + 1) 0 c = ([], indent, ⟨ch :: rest, c.index + indent, c.line, indent⟩) := by
  have hspaces : c.skipSpaces = ⟨ch :: rest, c.index + indent, c.line, indent⟩ := by
    have htaken := Cursor.takeWhile_append (p := fun d => d = ' ') h
      (fun d hd => by simp [List.eq_of_mem_replicate hd]) (fun d hd => by cases hd; simp [hspace])
    have hplace := Cursor.forward_printable h fun d hd => by
      rw [List.eq_of_mem_replicate hd]
      decide
    rw [Cursor.skipSpaces, Cursor.skipWhile, htaken, hplace]
    simp [hcolumn]
  have hend : (Cursor.mk (ch :: rest) (c.index + indent) c.line indent).lineEnd? = none :=
    Cursor.lineEnd?_of_not fun d hd => by
      cases hd
      exact isLineEnd_of_isPrintable hch
  simp [leadingLines, hspaces, hend]

/-- What stands before the first line of a block: blank lines, the indentation, and the place. -/
def opening (parent : Int) (increment : Option Nat) (c : Cursor) : List Char × Nat × Cursor :=
  match increment with
  | none =>
      let (breaks, deepest, c) := leadingLines (c.rest.length + 1) 0 c
      (breaks, max (max (parent + 1) 1).toNat deepest, c)
  | some n =>
      let indent := (max (parent + 1) 1).toNat + n - 1
      let (breaks, c) := blockBreaks indent (c.rest.length + 1) c
      (breaks, indent, c)

def body (folded : Bool) (breaks : List Char) (indent : Nat) (c : Cursor) :
    List Char × Option Char × List Char × Cursor :=
  if c.column = indent && !c.rest.isEmpty then readLines folded indent (c.rest.length + 1) breaks c
  else ([], none, breaks, c)

/-- What a chomping leaves of the line ends after the last line. -/
def Chomping.kept (last : Option Char) (trailing : List Char) : Chomping → List Char
  | .strip => []
  | .clip => last.toList
  | .keep => last.toList ++ trailing

theorem read_eq {folded : Bool} {parent : Int} {c start : Cursor} {chomping : Chomping}
    {increment : Option Nat} {after : Cursor}
    (hindicators : indicators c = some (chomping, increment, after))
    (hline : restOfLine after = some start) :
    read folded parent c =
      let (breaks, indent, first) := opening parent increment start
      let (text, last, trailing, after) := body folded breaks indent first
      some (text ++ chomping.kept last trailing, after) := by
  simp only [read, hindicators, hline, Option.bind_eq_bind, Option.bind_some]
  cases increment <;> cases chomping <;> rfl

/-- A block with a line opens with blank lines and the indentation of the line. Without an indicator
there are no blank lines, and the indentation is the line's own. -/
private theorem opening_line {parent : Int} {c : Cursor} {lead : Bool} {ch : Char}
    {rest : List Char} (hindent : (indent : Int) = max parent 0 + 2) (hbs : AreBreaks bs)
    (h : c.rest = bs ++ (List.replicate indent ' ' ++ ch :: rest))
    (hcolumn : c.column = 0) (hch : isPrintable ch = true)
    (hlead : lead = false → bs = [] ∧ ch ≠ ' ') :
    opening parent (if lead then some 2 else none) c =
      (bs, indent,
        ⟨ch :: rest, c.index + bs.length + indent, c.line + bs.length, indent⟩) := by
  cases lead with
  | true =>
      have htold : (max (parent + 1) 1).toNat + 2 - 1 = indent := by omega
      have hbreaks := blockBreaks_line (c.rest.length + 1) hbs h hcolumn hch (by
        rw [h]
        simp only [List.length_append]
        omega)
      simp only [opening, if_true, htold, hbreaks]
  | false =>
      obtain ⟨rfl, hspace⟩ := hlead rfl
      have hdeepest : max (max (parent + 1) 1).toNat indent = indent := by omega
      have hseen := leadingLines_line c.rest.length h hcolumn hch hspace
      simp only [opening, Bool.false_eq_true, if_false, hseen, hdeepest]
      rfl

private theorem opening_end {parent : Int} {c : Cursor} {limit : Nat}
    (hindent : (indent : Int) = max parent 0 + 2) (hbs : AreBreaks bs) (h : c.rest = bs ++ t)
    (hcolumn : c.column = 0) (ht : Outdented limit t) (hlimit : limit < indent) :
    opening parent (some 2) c =
      (bs, indent, Cursor.skipSpaces ⟨t, c.index + bs.length, c.line + bs.length, 0⟩) := by
  have htold : (max (parent + 1) 1).toNat + 2 - 1 = indent := by omega
  have hbreaks := blockBreaks_end (c.rest.length + 1) hbs h hcolumn ht hlimit (by
    rw [h]
    simp only [List.length_append]
    omega)
  simp only [opening, htold, hbreaks]

private theorem column_skipSpaces {limit : Nat} (ht : Outdented limit t) (hlimit : limit < indent)
    (index line : Nat) : (Cursor.skipSpaces ⟨t, index, line, 0⟩).column ≠ indent := by
  have hspaces := ht.spaces
  rw [Cursor.skipSpaces_eq]
  simp only
  omega

private theorem kept_line (bs : List Char) :
    (chompingOf true bs.length).kept (some (lastEnd bs)) bs.tail = bs := by
  match bs with
  | [] => rfl
  | [_] => rfl
  | _ :: _ :: _ => rfl

private theorem kept_blank (hnonempty : bs ≠ []) :
    (chompingOf false bs.length).kept none bs = bs := by
  match bs with
  | [_] => rfl
  | _ :: _ :: _ => rfl

/-- A literal block is read back, up to the first line after it that is less indented. -/
theorem read_write {s : List Char} {parent : Int} {limit : Nat} {c : Cursor} (hs : IsLined s)
    (hnonempty : s ≠ []) (hindent : (indent : Int) = max parent 0 + 2)
    (ht : Outdented limit t) (hlimit : limit < indent)
    (h : c.rest = Literal.hints s ++ '\n' :: (Literal.writeLines indent true s ++ t)) :
    ∃ i l, c.line < l ∧ read false parent c = some (s, Cursor.skipSpaces ⟨t, i, l, 0⟩) := by
  obtain ⟨u, bs, rfl, hbs, hu, hlast⟩ := exists_trailing hs
  have hmarks := h
  rw [hints_eq hlast hbs hnonempty] at hmarks
  have hbelow := Cursor.line_le_forward ((if leads (u ++ bs) then ['2'] else [])
    ++ (chompingOf (!u.isEmpty) bs.length).mark).length c
  rw [read_eq (indicators_marks hmarks) (restOfLine_newline (Cursor.rest_forward_append hmarks))]
  generalize c.forward ((if leads (u ++ bs) then ['2'] else []) ++
    (chompingOf (!u.isEmpty) bs.length).mark).length = place at hbelow
  by_cases hempty : u = []
  · -- only line ends: they are blank lines before the end of a block without lines
    subst hempty
    have hsome : bs ≠ [] := fun hnone => hnonempty (by simp [hnone])
    have hlead : leads ([] ++ bs) = true := by
      obtain ⟨b, others, rfl⟩ := List.exists_cons_of_ne_nil hsome
      simp [leads, isBreak_of_isKeptBreak (AreBreaks.cons_iff.mp hbs).1]
    have hcolumn := column_skipSpaces ht hlimit (place.index + 1 + bs.length)
      (place.line + 1 + bs.length)
    refine ⟨place.index + 1 + bs.length, place.line + 1 + bs.length, by omega, ?_⟩
    rw [hlead, if_pos rfl, opening_end hindent hbs
      (by rw [List.nil_append, Literal.writeLines_areBreaks hbs]) rfl ht hlimit]
    simp [body, hcolumn, kept_blank hsome]
  · obtain ⟨before, d, others, rfl, hbefore, hd, hothers, hend⟩ := exists_breaks hu hlast hempty
    have hwritten : Literal.writeLines indent true (before ++ d :: others ++ bs) ++ t =
        before ++ (List.replicate indent ' ' ++
          d :: (Literal.writeLines indent false (others ++ bs) ++ t)) := by
      rw [List.append_assoc, List.cons_append, Literal.writeLines_blank hbefore _ hd]
      simp only [List.append_assoc, List.cons_append]
    have hlead : leads (before ++ d :: others ++ bs) = false → before = [] ∧ d ≠ ' ' := by
      rw [List.append_assoc]
      exact of_not_leads hbefore
    rw [opening_line hindent hbefore hwritten rfl hd hlead]
    simp only
    obtain ⟨start, hstart⟩ : ∃ start : Cursor, start = ⟨d :: (Literal.writeLines indent false
        (others ++ bs) ++ t), place.index + 1 + before.length + indent,
        place.line + 1 + before.length, indent⟩ := ⟨_, rfl⟩
    obtain ⟨i, l, hl, hlines⟩ := @readLines_writeLines indent t bs (d :: others) before _ _ start
      hothers hend hbs ht hlimit (Nat.lt_succ_self _)
      (by rw [hstart, List.cons_append, Literal.writeLines_char _ hd]; rfl)
    have hfilled : (!(before ++ d :: others).isEmpty) = true := by simp
    have hatStart : (start.column = indent && !start.rest.isEmpty) = true := by simp [hstart]
    refine ⟨i, l, ?_, ?_⟩
    · rw [hstart] at hl
      simp only at hl
      omega
    · rw [← hstart, body, if_pos hatStart, hlines, hfilled]
      simp only [kept_line]

end Block

end FunctionPipeline.Yaml

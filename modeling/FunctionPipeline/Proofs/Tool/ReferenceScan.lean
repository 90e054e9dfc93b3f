import FunctionPipeline.Proofs.Text.Pieces
import FunctionPipeline.Tool.ModuleReferences

/-!
What the search for references does on a part of a text without quotation marks. Whatever it looks
for is a word right before a name in quotation marks, with white space between at most. So in front
of the first quotation mark nothing is found but at the word that stands right before it, and where
no name is ahead nothing is found at all.
-/

namespace FunctionPipeline.ModuleReference

variable {s t : List Char} {found : List Char × List Char}

def Unquoted (s : List Char) : Prop := ∀ c ∈ s, isQuote c = false

instance (s : List Char) : Decidable (Unquoted s) :=
  List.decidableBAll (isQuote · = false) s

/-- A word and white space behind it, or none. -/
def Spells (word : String) (s : List Char) : Prop :=
  ∃ blanks, (∀ c ∈ blanks, isBlank c = true) ∧ s = word.toList ++ blanks

def callWords : List String := ["import(", "__require(", "require("]

theorem Unquoted.append (hs : Unquoted s) (ht : Unquoted t) : Unquoted (s ++ t) := by
  intro c hc
  rcases List.mem_append.mp hc with hmem | hmem
  · exact hs c hmem
  · exact ht c hmem

theorem Unquoted.of_append_right (h : Unquoted (s ++ t)) : Unquoted t :=
  fun c hc => h c (List.mem_append_right _ hc)

theorem not_isQuote_of_isBlank {c : Char} (h : isBlank c = true) : isQuote c = false := by
  rw [Bool.eq_false_iff]
  intro hquote
  simp only [isQuote, Bool.or_eq_true, decide_eq_true_eq] at hquote
  rcases hquote with rfl | rfl <;> cases h

theorem unquoted_of_blank (h : ∀ c ∈ s, isBlank c = true) : Unquoted s :=
  fun c hc => not_isQuote_of_isBlank (h c hc)

section Names

theorem quoted?_of_not_isQuote {c : Char} (h : isQuote c = false) : quoted? (c :: s) = none := by
  simp [quoted?, h]

/-- A name between quotation marks is read up to the second one. -/
theorem quoted?_literal {mark closing : Char} {name : List Char} (hmark : isQuote mark = true)
    (hclosing : isQuote closing = true) (hname : Unquoted name) (hnonempty : name ≠ []) :
    quoted? (mark :: (name ++ closing :: t)) = some (name, t) := by
  have htaken : (name ++ closing :: t).takeWhile (fun c => !isQuote c) = name :=
    takeWhile_append_of_head (fun c hc => by simp [hname c hc]) (by simp [hclosing])
  simp [quoted?, hmark, htaken, hnonempty]

theorem quotedAfterBlanks?_append_blanks (hs : ∀ c ∈ s, isBlank c = true) :
    quotedAfterBlanks? (s ++ t) = quotedAfterBlanks? t := by
  rw [quotedAfterBlanks?, List.dropWhile_append_of_pos hs, quotedAfterBlanks?]

/-- Only white space can stand in front of a name. -/
theorem of_quotedAfterBlanks? (hs : Unquoted s) (h : quotedAfterBlanks? (s ++ t) = some found) :
    (∀ c ∈ s, isBlank c = true) ∧ quotedAfterBlanks? t = some found := by
  induction s with
  | nil => exact ⟨by simp, h⟩
  | cons c s ih =>
      have hrest : Unquoted s := fun d hd => hs d (List.mem_cons_of_mem c hd)
      cases hblank : isBlank c with
      | true =>
          rw [quotedAfterBlanks?, List.cons_append, List.dropWhile_cons_of_pos hblank] at h
          obtain ⟨hall, hname⟩ := ih hrest h
          exact ⟨by simpa [hblank] using hall, hname⟩
      | false =>
          have hc : isQuote c = false := hs c List.mem_cons_self
          rw [quotedAfterBlanks?, List.cons_append, List.dropWhile_cons_of_neg (by simp [hblank]),
            quoted?_of_not_isQuote hc] at h
          cases h

theorem quotedAfterBlanks?_eq_none (hs : Unquoted s)
    (h : (∀ c ∈ s, isBlank c = true) → quotedAfterBlanks? t = none) :
    quotedAfterBlanks? (s ++ t) = none := by
  cases hfound : quotedAfterBlanks? (s ++ t) with
  | none => rfl
  | some found =>
      obtain ⟨hblank, hname⟩ := of_quotedAfterBlanks? hs hfound
      rw [h hblank] at hname
      cases hname

end Names

section Words

/-- What ends a part of a line: nothing, a line break or a quotation mark. -/
def IsBoundary (t : List Char) : Prop := ∀ c ∈ t.head?, c = '\n' ∨ isQuote c = true

/-- A word with a name ahead stands right before that name. -/
theorem of_word {word : String} (hs : Unquoted s) (ht : ∀ c ∈ t.head?, c ∉ word.toList)
    (h : (afterWord? word (s ++ t)).bind quotedAfterBlanks? = some found) :
    Spells word s ∧ quotedAfterBlanks? t = some found := by
  obtain ⟨rest, hword, hname⟩ := Option.bind_eq_some_iff.mp h
  obtain ⟨more, rfl, rfl⟩ := exists_of_afterWord? ht hword
  obtain ⟨hblank, hahead⟩ := of_quotedAfterBlanks? hs.of_append_right hname
  exact ⟨⟨more, hblank, rfl⟩, hahead⟩

theorem bind_argument?_eq_none {word : String} (hword : word ∈ callWords) (hs : Unquoted s)
    (ht : IsBoundary t) (h : Spells word s → quotedAfterBlanks? t = none) :
    (afterWord? word (s ++ t)).bind argument? = none := by
  have hnot : ∀ c ∈ t.head?, c ∉ word.toList := by
    intro c hc
    simp only [callWords, List.mem_cons, List.not_mem_nil, or_false] at hword
    have hmark := ht c hc
    simp only [isQuote, Bool.or_eq_true, decide_eq_true_eq] at hmark
    rcases hword with rfl | rfl | rfl <;> rcases hmark with rfl | rfl | rfl <;> decide
  rw [Option.eq_none_iff_forall_ne_some]
  intro found hfound
  obtain ⟨rest, hrest, hargument⟩ := Option.bind_eq_some_iff.mp hfound
  obtain ⟨name, hname, -⟩ := Option.bind_eq_some_iff.mp hargument
  obtain ⟨hspells, hahead⟩ := of_word hs hnot (Option.bind_eq_some_iff.mpr ⟨rest, hrest, hname⟩)
  rw [h hspells] at hahead
  cases hahead

/-- There is no call where none of its words stands right before a name. -/
theorem call_eq_none (before : Option Char) (hs : Unquoted s) (ht : IsBoundary t)
    (h : ∀ word ∈ callWords, Spells word s → quotedAfterBlanks? t = none) :
    importCall? before (s ++ t) = none ∧ requireCall? before (s ++ t) = none := by
  have hnone (word : String) (hword : word ∈ callWords) :
      (afterWord? word (s ++ t)).bind argument? = none :=
    bind_argument?_eq_none hword hs ht (h word hword)
  constructor
  · rw [importCall?, hnone _ (by decide), ite_self]
  · rw [requireCall?]
    split
    · rfl
    · cases hlong : afterWord? "__require(" (s ++ t) with
      | none => rw [Option.none_or, hnone _ (by decide)]
      | some rest => rw [Option.some_or, ← hlong, hnone _ (by decide)]

def EndsWith (word : String) (s : List Char) : Prop :=
  ∃ early late, s = early ++ late ∧ Spells word late

theorem Spells.endsWith {word : String} (h : Spells word s) : EndsWith word s := ⟨[], s, rfl, h⟩

theorem EndsWith.append {word : String} (h : EndsWith word t) (s : List Char) :
    EndsWith word (s ++ t) := by
  obtain ⟨early, late, rfl, hlate⟩ := h
  exact ⟨s ++ early, late, (List.append_assoc s early late).symm, hlate⟩

def IsSolid (word : String) : Prop := ∃ chars c, word.toList = chars ++ [c] ∧ isBlank c = false

theorem Spells.rdropWhile {word : String} {early : List Char} (h : Spells word s)
    (hword : IsSolid word) : (early ++ s).rdropWhile isBlank = early ++ word.toList := by
  obtain ⟨blanks, hblanks, rfl⟩ := h
  obtain ⟨chars, c, hchars, hc⟩ := hword
  rw [hchars, ← List.append_assoc, ← List.append_assoc]
  exact rdropWhile_append_blanks hblanks hc

/-- What a text ends with is the end of whatever it spells. -/
theorem Spells.eq_append {v w : String} {early blanks : List Char} (hv : IsSolid v) (hw : IsSolid w)
    (hblanks : ∀ c ∈ blanks, isBlank c = true) (h : Spells v (early ++ (w.toList ++ blanks))) :
    v.toList = early ++ w.toList := by
  have hspelled : Spells w (w.toList ++ blanks) := ⟨blanks, hblanks, rfl⟩
  have hcut : ([] ++ (early ++ (w.toList ++ blanks))).rdropWhile isBlank = [] ++ v.toList :=
    h.rdropWhile hv
  rw [List.nil_append, hspelled.rdropWhile hw] at hcut
  exact hcut.symm

/-- Two words that a text ends with end alike. -/
theorem EndsWith.suffix {v w : String} (hv : EndsWith v s) (hw : EndsWith w s) (hsolid : IsSolid v)
    (hsolid' : IsSolid w) : v.toList <:+ w.toList ∨ w.toList <:+ v.toList := by
  obtain ⟨early, late, rfl, hlate⟩ := hv
  obtain ⟨early', late', hsplit, hlate'⟩ := hw
  have hcut : early ++ v.toList = early' ++ w.toList := by
    rw [← hlate.rdropWhile hsolid, hsplit, hlate'.rdropWhile hsolid']
  exact List.suffix_or_suffix_of_suffix (List.suffix_append early v.toList)
    (hcut ▸ List.suffix_append early' w.toList)

end Words

section LineStarts

variable {mark : Char}

/-- What stands where the text without quotation marks ends: nothing or a quotation mark. -/
def IsMarked (t : List Char) : Prop := ∀ c ∈ t.head?, isQuote c = true

theorem IsMarked.isBoundary (h : IsMarked t) : IsBoundary t := fun c hc => .inr (h c hc)

theorem isMarked_cons (h : isQuote mark = true) : IsMarked (mark :: t) := by
  simpa [IsMarked] using h

theorem isMarked_nil : IsMarked [] := by simp [IsMarked]

theorem not_isBlank_of_isQuote {c : Char} (h : isQuote c = true) : isBlank c = false := by
  rw [Bool.eq_false_iff]
  intro hblank
  rw [not_isQuote_of_isBlank hblank] at h
  cases h

theorem IsMarked.not_mem {word : String} (h : IsMarked t) (hword : Unquoted word.toList) :
    ∀ c ∈ t.head?, c ∉ word.toList := by
  intro c hc hmem
  have hquote := h c hc
  rw [hword c hmem] at hquote
  cases hquote

theorem dropWhile_append_marked (ht : IsMarked t) :
    (s ++ t).dropWhile isBlank = s.dropWhile isBlank ++ t := by
  rw [List.dropWhile_append]
  split
  next hempty =>
    rw [List.isEmpty_iff.mp hempty, List.nil_append]
    cases t with
    | nil => rfl
    | cons mark t =>
        exact List.dropWhile_cons_of_neg (by simp [not_isBlank_of_isQuote (ht mark rfl)])
  next => rfl

theorem of_fromClause?_cons {before c : Char} (h : fromClause? before (c :: s) = some found) :
    (afterWord? "from" (c :: s)).bind quotedAfterBlanks? = some found ∨
      (isQuote c = false ∧ fromClause? c s = some found) := by
  rw [fromClause?] at h
  split at h
  next name hname =>
    left
    split at hname
    · cases hname
    · rw [hname, h]
  next =>
    right
    simp only [Bool.or_eq_true, decide_eq_true_eq, Option.ite_none_left_eq_some, not_or] at h
    exact ⟨by simpa using h.1.2, h.2⟩

theorem unquoted_from : Unquoted "from".toList := by decide

theorem isSolid_from : IsSolid "from" := ⟨"fro".toList, 'm', rfl, rfl⟩

/-- A clause is read up to a `from` right before the first name. -/
theorem of_fromClause? {before : Char} (hs : Unquoted s) (ht : IsMarked t)
    (h : fromClause? before (s ++ t) = some found) :
    EndsWith "from" s ∧ quotedAfterBlanks? t = some found := by
  induction s generalizing before with
  | nil =>
      cases t with
      | nil => cases h
      | cons mark t =>
          rcases of_fromClause?_cons h with hhere | ⟨hquote, -⟩
          · obtain ⟨hspells, hname⟩ := of_word (s := []) hs (ht.not_mem unquoted_from) hhere
            exact ⟨hspells.endsWith, hname⟩
          · rw [ht mark rfl] at hquote
            cases hquote
  | cons c s ih =>
      rcases of_fromClause?_cons h with hhere | ⟨-, hlater⟩
      · obtain ⟨hspells, hname⟩ := of_word (s := c :: s) hs (ht.not_mem unquoted_from) hhere
        exact ⟨hspells.endsWith, hname⟩
      · obtain ⟨hends, hname⟩ := ih (fun d hd => hs d (List.mem_cons_of_mem c hd)) hlater
        exact ⟨hends.append [c], hname⟩

/-- The `from` of a clause is found: in front of it no name is ahead, and no semicolon stands. -/
theorem fromClause?_of_from {before : Char} {blanks : List Char} (hs : Unquoted s)
    (hsemicolon : ';' ∉ s) (hlast : ∀ c ∈ (before :: s).getLast?, isWord c = false)
    (hblanks : ∀ c ∈ blanks, isBlank c = true) (ht : IsMarked t)
    (hfound : quotedAfterBlanks? t = some found) :
    fromClause? before (s ++ ("from".toList ++ (blanks ++ t))) = some found := by
  have hfrom : Unquoted ("from".toList ++ blanks) :=
    unquoted_from.append (unquoted_of_blank hblanks)
  induction s generalizing before with
  | nil =>
      have hword : isWord before = false := hlast before rfl
      have hhere : (afterWord? "from" ('f' :: ("rom".toList ++ (blanks ++ t)))).bind
          quotedAfterBlanks? = some found := by
        change (afterWord? "from" ("from".toList ++ (blanks ++ t))).bind _ = _
        rw [afterWord?_append, Option.bind_some, quotedAfterBlanks?_append_blanks hblanks, hfound]
      change fromClause? before ('f' :: ("rom".toList ++ (blanks ++ t))) = _
      rw [fromClause?]
      simp only [hword, Bool.false_eq_true, if_false, hhere]
  | cons c s ih =>
      have hhere : (afterWord? "from" (c :: (s ++ ("from".toList ++ (blanks ++ t))))).bind
          quotedAfterBlanks? = none := by
        have hnot : ¬ Spells "from" (c :: s ++ ("from".toList ++ blanks)) := by
          intro hspells
          have hlength := congrArg List.length (hspells.eq_append isSolid_from isSolid_from hblanks)
          simp at hlength
        rw [Option.eq_none_iff_forall_ne_some]
        intro name hname
        have hspelled : (afterWord? "from" (c :: s ++ ("from".toList ++ blanks) ++ t)).bind
            quotedAfterBlanks? = some name := by simpa using hname
        exact hnot (of_word (hs.append hfrom) (ht.not_mem unquoted_from) hspelled).1
      have hc : (decide (c = ';') || isQuote c) = false := by
        have hne : c ≠ ';' := fun heq => hsemicolon (heq ▸ List.mem_cons_self)
        simp [hne, hs c List.mem_cons_self]
      rw [List.cons_append, fromClause?]
      simp only [hhere, ite_self, hc, Bool.false_eq_true, if_false]
      apply ih
      · exact fun d hd => hs d (List.mem_cons_of_mem c hd)
      · exact fun hmem => hsemicolon (List.mem_cons_of_mem c hmem)
      · simpa using hlast

theorem atLineStart?_append_blanks (hs : ∀ c ∈ s, isBlank c = true) :
    atLineStart? (s ++ t) = atLineStart? t := by
  simp only [atLineStart?, List.dropWhile_append_of_pos hs]

theorem of_withClause? (hs : Unquoted s) (ht : IsMarked t)
    (h : withClause? (s ++ t) = some found) :
    EndsWith "from" s ∧ quotedAfterBlanks? t = some found := by
  have hafter {word : String} {rest : List Char} (hword : Unquoted word.toList)
      (hrest : afterWord? word (s ++ t) = some rest) :
      ∃ early late, s = early ++ late ∧ rest = late ++ t := by
    obtain ⟨more, hsplit, hmore⟩ := exists_of_afterWord? (ht.not_mem hword) hrest
    exact ⟨word.toList, more, hsplit, hmore⟩
  unfold withClause? at h
  split at h
  next blank rest hrest =>
    obtain ⟨early, late, rfl, hlate⟩ : ∃ early late, s = early ++ late ∧
        blank :: rest = late ++ t := by
      rcases Option.or_eq_some_iff.mp hrest with himport | ⟨-, hexport⟩
      · exact hafter (by decide) himport
      · exact hafter (by decide) hexport
    split at h
    next hblank =>
      cases late with
      | nil =>
          obtain rfl : t = blank :: rest := hlate.symm
          rw [not_isBlank_of_isQuote (ht blank rfl)] at hblank
          cases hblank
      | cons c late =>
          cases hlate
          have hlater : Unquoted late :=
            fun d hd => hs.of_append_right d (List.mem_cons_of_mem blank hd)
          obtain ⟨hends, hname⟩ := of_fromClause? hlater ht h
          exact ⟨(hends.append [blank]).append early, hname⟩
    next => cases h
  next => cases h

/-- What starts a line is read up to the first name, and right before it stands `from` or
`import`. -/
theorem of_atLineStart? (hs : Unquoted s) (ht : IsMarked t)
    (h : atLineStart? (s ++ t) = some found) :
    (EndsWith "from" s ∨ EndsWith "import" s) ∧ quotedAfterBlanks? t = some found := by
  have hsplit : s.takeWhile isBlank ++ s.dropWhile isBlank = s := List.takeWhile_append_dropWhile
  have hlate : Unquoted (s.dropWhile isBlank) := (hsplit.symm ▸ hs).of_append_right
  have hends {word : String} (h : EndsWith word (s.dropWhile isBlank)) : EndsWith word s :=
    hsplit ▸ h.append (s.takeWhile isBlank)
  rw [atLineStart?, dropWhile_append_marked ht] at h
  rcases Option.or_eq_some_iff.mp h with hclause | ⟨-, hbare⟩
  · obtain ⟨hfrom, hname⟩ := of_withClause? hlate ht hclause
    exact ⟨.inl (hends hfrom), hname⟩
  · obtain ⟨himport, hname⟩ := of_word hlate (ht.not_mem (by decide)) hbare
    exact ⟨.inr (hends himport.endsWith), hname⟩

/-- Where neither word stands right before the first name, no reference starts a line. -/
theorem atLineStart?_eq_none (hs : Unquoted s) (ht : IsMarked t) (hfrom : ¬ EndsWith "from" s)
    (himport : ¬ EndsWith "import" s) : atLineStart? (s ++ t) = none := by
  rw [Option.eq_none_iff_forall_ne_some]
  intro found hfound
  rcases (of_atLineStart? hs ht hfound).1 with h | h
  · exact hfrom h
  · exact himport h

/-- Without a name no reference starts a line. -/
theorem atLineStart?_of_unquoted (hs : Unquoted s) : atLineStart? s = none := by
  rw [Option.eq_none_iff_forall_ne_some]
  intro found hfound
  rw [← List.append_nil s] at hfound
  cases (of_atLineStart? hs isMarked_nil hfound).2

end LineStarts

section Places

/-- There is a line start in front of a place. -/
def StartsLine (before : Option Char) : Prop := ∀ c ∈ before, c = '\n'

/-- No call begins in a text, whatever stands in front of it. -/
def Callless (s t : List Char) : Prop :=
  ∀ early late : List Char, s = early ++ late → late ≠ [] → ∀ before,
    importCall? before (late ++ t) = none ∧ requireCall? before (late ++ t) = none

theorem callless_of_endsWith (hs : Unquoted s) (ht : IsBoundary t)
    (h : ∀ word ∈ callWords, EndsWith word s → quotedAfterBlanks? t = none) : Callless s t := by
  rintro early late rfl - before
  apply call_eq_none before hs.of_append_right ht
  intro word hword hspells
  exact h word hword ⟨early, late, rfl, hspells⟩

/-- No call begins where no name is ahead. -/
theorem callless_of_none (hs : Unquoted s) (ht : IsBoundary t)
    (h : quotedAfterBlanks? t = none) : Callless s t :=
  callless_of_endsWith hs ht fun _ _ _ => h

/-- What stands in front of a place behind a character. -/
theorem getLast?_cons_or (c : Char) (s : List Char) (before : Option Char) :
    (c :: s).getLast?.or before = s.getLast?.or (some c) := by
  rw [List.getLast?_cons]
  cases s.getLast? <;> rfl

theorem scan_skip (before : Option Char) (s t : List Char) :
    scan before s.length (s ++ t) = scan (s.getLast?.or before) 0 t := by
  induction s generalizing before with
  | nil => rfl
  | cons c s ih =>
      rw [List.length_cons, List.cons_append, scan, ih, getLast?_cons_or]

/-- A reference is found, and the search goes on behind it. -/
theorem scan_of_here? {before : Option Char} {name : List Char} (hs : s ≠ [])
    (h : here? before (s ++ t) = some (name, t)) :
    scan before 0 (s ++ t) = name :: scan s.getLast? 0 t := by
  cases s with
  | nil => exact absurd rfl hs
  | cons c s =>
      have hskip : (s ++ t).length - t.length = s.length := by simp
      rw [List.cons_append] at h ⊢
      rw [scan, h]
      simp only
      rw [hskip, scan_skip, List.getLast?_cons]
      cases s.getLast? <;> rfl

/-- Where no place of a text begins a reference, the search comes to its end. -/
theorem scan_of_none {before : Option Char}
    (h : ∀ early late, s = early ++ late → late ≠ [] →
      here? (early.getLast?.or before) (late ++ t) = none) :
    scan before 0 (s ++ t) = scan (s.getLast?.or before) 0 t := by
  induction s generalizing before with
  | nil => rfl
  | cons c s ih =>
      have hhere : here? before (c :: (s ++ t)) = none := h [] (c :: s) rfl (List.cons_ne_nil c s)
      rw [List.cons_append, scan, hhere]
      simp only
      rw [getLast?_cons_or, ih]
      rintro early late rfl hlate
      rw [← getLast?_cons_or c early before]
      exact h (c :: early) late rfl hlate

theorem here?_eq_none {before : Option Char}
    (hline : StartsLine before → atLineStart? s = none)
    (hcall : importCall? before s = none ∧ requireCall? before s = none) :
    here? before s = none := by
  simp only [here?, hcall.1, hcall.2, Option.or_none]
  split
  next hstart =>
    apply hline
    intro c hc
    simpa [Option.mem_def.mp hc] using hstart
  next => rfl

theorem atLineStart?_of_here? {before : Option Char}
    (hcall : importCall? before s = none ∧ requireCall? before s = none)
    (h : here? before s = some found) : atLineStart? s = some found := by
  simp only [here?, hcall.1, hcall.2, Option.or_none] at h
  split at h
  · exact h
  · cases h

/-- Where all places of a text that begin a reference begin the same one, it is found once. -/
theorem scan_of_place {before : Option Char} {name matched : List Char} (hmatched : matched ≠ [])
    (hall : ∀ early late, s = early ++ late → late ≠ [] →
      ∀ found ∈ here? (early.getLast?.or before) (late ++ (matched ++ t)), found = (name, t))
    (hsome : ∃ early late, s = early ++ late ∧ late ≠ [] ∧
      here? (early.getLast?.or before) (late ++ (matched ++ t)) = some (name, t)) :
    scan before 0 (s ++ (matched ++ t)) = name :: scan matched.getLast? 0 t := by
  induction s generalizing before with
  | nil =>
      obtain ⟨early, late, hnil, hlate, -⟩ := hsome
      exact absurd (List.append_eq_nil_iff.mp hnil.symm).2 hlate
  | cons c s ih =>
      cases hhere : here? before (c :: (s ++ (matched ++ t))) with
      | some found =>
          obtain rfl := hall [] (c :: s) rfl (List.cons_ne_nil c s) found hhere
          have hcut : c :: (s ++ (matched ++ t)) = (c :: (s ++ matched)) ++ t := by simp
          rw [hcut] at hhere
          rw [List.cons_append, hcut, scan_of_here? (List.cons_ne_nil _ _) hhere,
            ← List.cons_append, List.getLast?_append_of_ne_nil _ hmatched]
      | none =>
          rw [List.cons_append, scan, hhere]
          apply ih
          · rintro early late rfl hlate
            rw [← getLast?_cons_or c early before]
            exact hall (c :: early) late rfl hlate
          · obtain ⟨early, late, hsplit, hlate, hfound⟩ := hsome
            cases early with
            | nil =>
                obtain rfl : late = c :: s := hsplit.symm
                rw [List.getLast?_nil, Option.none_or] at hfound
                rw [List.cons_append, hhere] at hfound
                cases hfound
            | cons d early =>
                obtain ⟨rfl, rfl⟩ := List.cons.inj hsplit
                rw [getLast?_cons_or] at hfound
                exact ⟨early, late, rfl, hlate, hfound⟩

/-- Without quotation marks nothing is found. -/
theorem scan_of_unquoted {before : Option Char} (hs : Unquoted s) : scan before 0 s = [] := by
  have hcallless : Callless s [] := callless_of_none hs (by simp [IsBoundary]) rfl
  have hscan : scan before 0 (s ++ []) = scan (s.getLast?.or before) 0 [] := by
    apply scan_of_none
    intro early late hsplit hlate
    apply here?_eq_none _ (hcallless early late hsplit hlate _)
    intro _
    rw [List.append_nil]
    exact atLineStart?_of_unquoted (hsplit ▸ hs).of_append_right
  rw [List.append_nil] at hscan
  rw [hscan, scan]

/-- On a line nothing is found but calls. -/
theorem scan_inLine {c : Char} (hc : c ≠ '\n') (hs : '\n' ∉ s) (h : Callless s t) :
    ∃ d, d ≠ '\n' ∧ scan (some c) 0 (s ++ t) = scan (some d) 0 t := by
  refine ⟨(s.getLast?).getD c, ?_, ?_⟩
  · cases hlast : s.getLast? with
    | none => exact hc
    | some d => exact fun heq => hs (heq ▸ List.mem_of_getLast? hlast)
  · rw [scan_of_none]
    · cases s.getLast? <;> rfl
    · rintro early late rfl hlate
      apply here?_eq_none _ (h early late rfl hlate _)
      intro hstart
      exfalso
      cases hlast : early.getLast? with
      | none => exact hc (hstart c (by simp [hlast]))
      | some d =>
          have hd : d = '\n' := hstart d (by simp [hlast])
          exact hs (List.mem_append_left _ (hd ▸ List.mem_of_getLast? hlast))

end Places

end FunctionPipeline.ModuleReference

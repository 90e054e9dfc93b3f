import FunctionPipeline.Proofs.Tool.ReferenceLines
import Mathlib.Data.List.Infix

/-!
What the search for references does on one line. It finds the name of a reference and nothing else
there, wherever on the line the reference begins; but it passes over an import or a re-export whose
clause is not set off from the first word by white space.
-/

namespace FunctionPipeline.ModuleReference

/-- Lines without quotation marks, or none, below which a line starts. -/
structure IsMargin (before : Option Char) (margin : List Char) : Prop where
  unquoted : Unquoted margin
  ends : StartsLine (margin.getLast?.or before)

theorem isMargin_nil {before : Option Char} (h : StartsLine before) : IsMargin before [] :=
  ⟨by simp [Unquoted], h⟩

section Starts

variable {before : Option Char} {margin core t : List Char}

theorem here?_of_atLineStart? {found : List Char × List Char} (hstart : StartsLine before)
    (h : atLineStart? core = some found) : here? before core = some found := by
  have hall : before.all (fun c => c = '\n') = true := by
    cases before with
    | none => rfl
    | some c => simpa using hstart c rfl
  simp [here?, hall, h]

theorem here?_of_call {found : List Char × List Char} (hline : atLineStart? core = none)
    (h : (importCall? before core).or (requireCall? before core) = some found) :
    here? before core = some found := by
  simp only [here?, hline, ite_self, Option.none_or, h]

/-- A line whose start is no reference has none up to where a call begins. -/
theorem scan_core (hmargin : ∀ c ∈ margin, isBlank c = true) (hcore : '\n' ∉ core)
    (hline : atLineStart? (core ++ t) = none) (hcall : Callless (margin ++ core) t) :
    scan before 0 (margin ++ core ++ t) = scan ((margin ++ core).getLast?.or before) 0 t := by
  apply scan_of_none
  intro early late hsplit hlate
  apply here?_eq_none _ (hcall early late hsplit hlate _)
  intro hstart
  rcases List.append_eq_append_iff.mp hsplit with ⟨more, rfl, hmore⟩ | ⟨more, hmore, rfl⟩
  · -- the place lies within the line, where only its first character follows a line break
    cases hlast : more.getLast? with
    | none =>
        have hnil : more = [] := List.getLast?_eq_none_iff.mp hlast
        rw [hnil, List.nil_append] at hmore
        rw [← hmore, hline]
    | some d =>
        have hd : d = '\n' := hstart d (by simp [List.getLast?_append, hlast])
        have hmem : d ∈ core := hmore ▸ List.mem_append_left _ (List.mem_of_getLast? hlast)
        exact absurd (hd ▸ hmem) hcore
  · rw [List.append_assoc, atLineStart?_append_blanks _, hline]
    intro c hc
    exact hmargin c (hmore ▸ List.mem_append_right _ hc)

/-- What stands in front of a place on the first line below a margin. -/
theorem IsMargin.before_of {p : Char → Bool} (h : IsMargin before margin)
    (hcore : ∀ c ∈ core.getLast?, p c = false) (hbreak : p '\n' = false) :
    ∀ c ∈ (margin ++ core).getLast?.or before, p c = false := by
  intro c hc
  cases hlast : core.getLast? with
  | none =>
      rw [List.getLast?_eq_none_iff.mp hlast, List.append_nil] at hc
      rw [h.ends c hc, hbreak]
  | some d =>
      rw [List.getLast?_append, hlast] at hc
      obtain rfl : d = c := by simpa using hc
      exact hcore d hlast

theorem scan_line (hmargin : ∀ c ∈ margin, isBlank c = true) (hnonempty : core ≠ [])
    (hcore : '\n' ∉ core) (hline : atLineStart? (core ++ t) = none)
    (hcall : Callless (margin ++ core) t) :
    ∃ c, c ≠ '\n' ∧ scan before 0 (margin ++ core ++ t) = scan (some c) 0 t := by
  refine ⟨core.getLast hnonempty, ?_, ?_⟩
  · exact fun heq => hcore (heq ▸ List.getLast_mem hnonempty)
  · rw [scan_core hmargin hcore hline hcall, List.getLast?_append,
      List.getLast?_eq_some_getLast hnonempty]
    rfl

end Starts

section Calls

theorem isSolid_of_mem {word : String} (h : word ∈ callWords) : IsSolid word := by
  simp only [callWords, List.mem_cons, List.not_mem_nil, or_false] at h
  rcases h with rfl | rfl | rfl
  · exact ⟨"import".toList, '(', rfl, rfl⟩
  · exact ⟨"__require".toList, '(', rfl, rfl⟩
  · exact ⟨"require".toList, '(', rfl, rfl⟩

theorem unquoted_of_mem {word : String} (h : word ∈ callWords) : Unquoted word.toList := by
  simp only [callWords, List.mem_cons, List.not_mem_nil, or_false] at h
  rcases h with rfl | rfl | rfl <;> decide

theorem isSolid_import : IsSolid "import" := ⟨"impor".toList, 't', rfl, rfl⟩

/-- A text that ends with a call's word ends with no other one that a reference needs. -/
theorem not_endsWith_of_call {word : String} {s : List Char} (hword : word ∈ callWords)
    (h : EndsWith word s) : ¬ EndsWith "from" s ∧ ¬ EndsWith "import" s := by
  have hsolid := isSolid_of_mem hword
  simp only [callWords, List.mem_cons, List.not_mem_nil, or_false] at hword
  constructor
  · intro hfrom
    have hsuffix := h.suffix hfrom hsolid isSolid_from
    rcases hword with rfl | rfl | rfl <;> revert hsuffix <;> decide
  · intro himport
    have hsuffix := h.suffix himport hsolid isSolid_import
    rcases hword with rfl | rfl | rfl <;> revert hsuffix <;> decide

variable {before : Option Char} {margin t : List Char} {word : String}

/-- In front of a call's word no call begins, unless a longer word does. -/
theorem callless_start (hword : word ∈ callWords) {start : List Char} (hstart : Unquoted start)
    (gap : Gap) (ht : IsMarked t)
    (hlonger : ∀ early late, start = early ++ late → late ≠ [] → ∀ v ∈ callWords,
      v.toList ≠ late ++ word.toList) :
    Callless start (word.toList ++ (gap.text ++ t)) := by
  intro early late hsplit hlate before
  have hunquoted : Unquoted (late ++ (word.toList ++ gap.text)) :=
    (hsplit ▸ hstart).of_append_right.append ((unquoted_of_mem hword).append gap.unquoted)
  have hnone := call_eq_none before hunquoted ht.isBoundary (by
    intro v hv hspells
    exact absurd (hspells.eq_append (isSolid_of_mem hv) (isSolid_of_mem hword) gap.blank)
      (hlonger early late hsplit hlate v hv))
  simpa only [List.append_assoc] using hnone

/-- A call's word right before a name starts no statement, whatever stands in front of it. -/
theorem atLineStart?_of_call (hword : word ∈ callWords) {start : List Char}
    (hstart : Unquoted start) (gap : Gap) (ht : IsMarked t) :
    atLineStart? (start ++ (word.toList ++ (gap.text ++ t))) = none := by
  have hends : EndsWith word (start ++ (word.toList ++ gap.text)) :=
    ⟨start, _, rfl, gap.text, gap.blank, rfl⟩
  obtain ⟨hfrom, himport⟩ := not_endsWith_of_call hword hends
  have hunquoted := hstart.append ((unquoted_of_mem hword).append gap.unquoted)
  have hnone := atLineStart?_eq_none hunquoted ht hfrom himport
  simpa only [List.append_assoc] using hnone

/-- A call at its place on a line is found, and nothing else on that line. -/
theorem scan_call (hword : word ∈ callWords) (hmargin : IsMargin before margin) (start : Plain)
    (gap : Gap) (literal : Literal) (close : Gap) (rest : Plain)
    (hlonger : ∀ early late, margin ++ start.text = early ++ late → late ≠ [] →
      ∀ v ∈ callWords, v.toList ≠ late ++ word.toList)
    (hcall : ∀ u, (importCall? ((margin ++ start.text).getLast?.or before)
        (word.toList ++ (gap.text ++ (literal.text ++ (close.text ++ ')' :: u))))).or
      (requireCall? ((margin ++ start.text).getLast?.or before)
        (word.toList ++ (gap.text ++ (literal.text ++ (close.text ++ ')' :: u))))) =
      some (literal.name, u)) (ht : IsBelow t) :
    scan before 0 (margin ++ (start.text ++ (word.toList ++ (gap.text ++
      (literal.text ++ (close.text ++ ')' :: (rest.text ++ t))))))) = literal.name :: below t := by
  have hmarked := literal.isMarked (close.text ++ ')' :: (rest.text ++ t))
  have hunquoted := hmargin.unquoted.append start.unquoted
  have hcallless := callless_start hword hunquoted gap hmarked hlonger
  have hnone : scan before 0 (margin ++ start.text ++ (word.toList ++ (gap.text ++ (literal.text ++
      (close.text ++ ')' :: (rest.text ++ t)))))) =
      scan ((margin ++ start.text).getLast?.or before) 0 (word.toList ++ (gap.text ++
        (literal.text ++ (close.text ++ ')' :: (rest.text ++ t))))) := by
    apply scan_of_none
    intro early late hsplit hlate
    apply here?_eq_none _ (hcallless early late hsplit hlate _)
    exact fun _ => atLineStart?_of_call hword (hsplit ▸ hunquoted).of_append_right gap hmarked
  have hnil : Unquoted [] := by decide
  have hhere := here?_of_call (atLineStart?_of_call hword hnil gap hmarked) (hcall (rest.text ++ t))
  have hcut : word.toList ++ (gap.text ++ (literal.text ++ (close.text ++ ')' ::
      (rest.text ++ t)))) = (word.toList ++ (gap.text ++ (literal.text ++ close.text)) ++ [')']) ++
        (rest.text ++ t) := by simp
  rw [← List.append_assoc, hnone]
  rw [List.nil_append, hcut] at hhere
  rw [hcut, scan_of_here? (by simp) hhere, List.getLast?_concat, scan_rest (by decide) rest ht]

/-- One word of a call ends with another one only if they differ by two underscores in front. -/
theorem eq_of_callWords {v word : String} {late : List Char} (hv : v ∈ callWords)
    (hword : word ∈ callWords) (h : v.toList = late ++ word.toList) :
    late = [] ∨ (word = "require(" ∧ late = "__".toList) := by
  have hlate : late = v.toList.take (v.toList.length - word.toList.length) := by
    rw [h]
    simp
  rw [hlate] at h ⊢
  clear hlate
  simp only [callWords, List.mem_cons, List.not_mem_nil, or_false] at hv hword
  rcases hv with rfl | rfl | rfl <;> rcases hword with rfl | rfl | rfl <;> revert h <;> decide

theorem any_eq_false_of {p : Char → Bool} {before : Option Char}
    (h : ∀ c ∈ before, p c = false) : before.any p = false := by
  cases before with
  | none => rfl
  | some c => exact h c rfl

theorem scan_importCall (hmargin : IsMargin before margin) (start : Plain) (gap : Gap)
    (literal : Literal) (close : Gap) (rest : Plain)
    (hstart : ∀ c ∈ start.text.getLast?, isWord c = false) (ht : IsBelow t) :
    scan before 0 (margin ++ (start.text ++ ("import(".toList ++ (gap.text ++
      (literal.text ++ (close.text ++ ')' :: (rest.text ++ t))))))) = literal.name :: below t := by
  apply scan_call (by decide) hmargin start gap literal close rest _ _ ht
  · intro early late _ hlate v hv heq
    rcases eq_of_callWords hv (by decide) heq with hnil | ⟨hother, -⟩
    · exact hlate hnil
    · exact absurd hother (by decide)
  · intro u
    have hbefore := any_eq_false_of (hmargin.before_of hstart (by decide))
    rw [importCall?, hbefore, if_neg (by decide), afterWord?_append, Option.bind_some,
      literal.argument? gap close u, Option.some_or]

theorem scan_requireCall (hmargin : IsMargin before margin) (start : Plain) (underscored : Bool)
    (gap : Gap) (literal : Literal) (close : Gap) (rest : Plain)
    (hstart : ∀ c ∈ start.text.getLast?, isCallee c = false) (ht : IsBelow t) :
    scan before 0 (margin ++ (start.text ++ ((requireWord underscored).toList ++ (gap.text ++
      (literal.text ++ (close.text ++ ')' :: (rest.text ++ t))))))) = literal.name :: below t := by
  have hword : requireWord underscored ∈ callWords := by cases underscored <;> decide
  have hbefore := hmargin.before_of hstart (by decide)
  apply scan_call hword hmargin start gap literal close rest _ _ ht
  · intro early late hsplit hlate v hv heq
    rcases eq_of_callWords hv hword heq with hnil | ⟨-, hlong⟩
    · exact hlate hnil
    · -- the underscores would be what the word may not follow
      have hlast : (margin ++ start.text).getLast? = some '_' := by
        rw [hsplit, hlong, List.getLast?_append]
        rfl
      have hcallee : isCallee '_' = false := hbefore '_' (by rw [hlast]; rfl)
      exact absurd hcallee (by decide)
  · intro u
    have himport (s : List Char) : importCall? ((margin ++ start.text).getLast?.or before)
        ((requireWord underscored).toList ++ s) = none := by
      have hnone : afterWord? "import(" ((requireWord underscored).toList ++ s) = none := by
        cases underscored <;> exact afterWord?_append_eq_none (by decide) (by decide) (by decide)
      rw [importCall?, hnone, Option.bind_none, ite_self]
    have hrequire (s : List Char) :
        (afterWord? "__require(" ((requireWord underscored).toList ++ s)).or
          (afterWord? "require(" ((requireWord underscored).toList ++ s)) = some s := by
      cases underscored with
      | true => rw [requireWord, if_pos rfl, afterWord?_append, Option.some_or]
      | false =>
          rw [requireWord, if_neg (by decide), afterWord?_append,
            afterWord?_append_eq_none (by decide) (by decide) (by decide), Option.none_or]
    rw [himport, Option.none_or, requireCall?, any_eq_false_of hbefore, if_neg (by decide),
      hrequire, Option.bind_some, literal.argument? gap close u]

end Calls

section Statements

variable {before : Option Char} {margin t : List Char}

/-- The word that starts an import or a re-export is read, whichever it is. -/
theorem Keyword.afterWord? (k : Keyword) (s : List Char) :
    (afterWord? "import" (k.word.toList ++ s)).or (afterWord? "export" (k.word.toList ++ s)) =
      some s := by
  cases k with
  | imports => rw [Keyword.word, afterWord?_append, Option.some_or]
  | exports =>
      rw [Keyword.word, afterWord?_append,
        afterWord?_append_eq_none (by decide) (by decide) (by decide), Option.none_or]

theorem Keyword.dropWhile (k : Keyword) (s : List Char) :
    (k.word.toList ++ s).dropWhile isBlank = k.word.toList ++ s := by
  cases k <;> rfl

/-- What a clause, `from` and a name read as at the start of a line. -/
theorem atLineStart?_clause (keyword : Keyword) (clause : Clause) (gap : Gap) (literal : Literal)
    (s : List Char) :
    atLineStart? (clause.statement keyword gap ++ (literal.text ++ s)) =
      if isBlank clause.first then some (literal.name, s) else none := by
  have hothers : Unquoted clause.others :=
    fun c hc => clause.unquoted c (List.mem_cons_of_mem _ hc)
  have hfrom := fromClause?_of_from hothers clause.unended clause.closes gap.blank
    (literal.isMarked s) (literal.quotedAfterBlanks? s)
  rw [Clause.statement, List.append_assoc, List.append_assoc, List.append_assoc, atLineStart?,
    keyword.dropWhile]
  simp only [withClause?, keyword.afterWord?, Clause.text, List.cons_append]
  cases hblank : isBlank clause.first with
  | true => simp only [if_true, hfrom, Option.some_or]
  | false =>
      have hquote : isQuote clause.first = false := clause.unquoted _ List.mem_cons_self
      have hnone (u : List Char) :
          ModuleReference.quotedAfterBlanks? (clause.first :: u) = none := by
        rw [ModuleReference.quotedAfterBlanks?, List.dropWhile_cons_of_neg (by simp [hblank]),
          quoted?_of_not_isQuote hquote]
      have hbare (u : List Char) : bare? (keyword.word.toList ++ clause.first :: u) = none := by
        cases keyword with
        | imports => rw [bare?, Keyword.word, afterWord?_append, Option.bind_some, hnone]
        | exports =>
            rw [bare?, Keyword.word, afterWord?_append_eq_none (by decide) (by decide) (by decide),
              Option.bind_none]
      simp [hbare]

/-- What an import for its effects reads as at the start of a line. -/
theorem atLineStart?_effects (gap : Gap) (literal : Literal) (s : List Char) :
    atLineStart? ("import".toList ++ (gap.text ++ (literal.text ++ s))) =
      some (literal.name, s) := by
  have hunquoted : Unquoted ("import".toList ++ gap.text) :=
    Unquoted.append (by decide) gap.unquoted
  have hends : EndsWith "import" ("import".toList ++ gap.text) :=
    ⟨[], _, rfl, gap.text, gap.blank, rfl⟩
  have hclause : withClause? ("import".toList ++ gap.text ++ (literal.text ++ s)) = none := by
    rw [Option.eq_none_iff_forall_ne_some]
    intro found hfound
    have hfrom := (of_withClause? hunquoted (literal.isMarked s) hfound).1
    have hsuffix := hfrom.suffix hends isSolid_from isSolid_import
    revert hsuffix
    decide
  rw [List.append_assoc] at hclause
  have hblanks : ("import".toList ++ (gap.text ++ (literal.text ++ s))).dropWhile isBlank =
      "import".toList ++ (gap.text ++ (literal.text ++ s)) := rfl
  rw [atLineStart?, hblanks]
  simp only [hclause, Option.none_or]
  rw [bare?, afterWord?_append, Option.bind_some, quotedAfterBlanks?_append_blanks gap.blank,
    literal.quotedAfterBlanks?]

theorem ne_lineBreak_of_isQuote {c : Char} (h : isQuote c = true) : c ≠ '\n' := by
  rintro rfl
  cases h

/-- A text that ends with a word of a statement ends with none of a call. -/
theorem not_endsWith_of_statement {s : List Char} (h : EndsWith "from" s ∨ EndsWith "import" s)
    {word : String} (hword : word ∈ callWords) : ¬ EndsWith word s := by
  intro hends
  obtain ⟨hfrom, himport⟩ := not_endsWith_of_call hword hends
  exact h.elim hfrom himport

/-- A statement is found, and nothing else on its line. White space and unfinished statements above
it may be read with it, but they come to the same name. -/
theorem scan_statement (hmargin : IsMargin before margin) (core : List Char) (literal : Literal)
    (rest : Plain) (hcore : Unquoted core) (hnonempty : core ≠ [])
    (hends : EndsWith "from" core ∨ EndsWith "import" core)
    (h : atLineStart? (core ++ (literal.text ++ (rest.text ++ t))) =
      some (literal.name, rest.text ++ t)) (ht : IsBelow t) :
    scan before 0 (margin ++ (core ++ (literal.text ++ (rest.text ++ t)))) =
      literal.name :: below t := by
  have hmark := ne_lineBreak_of_isQuote literal.isMark
  have hunquoted : Unquoted (margin ++ core) := hmargin.unquoted.append hcore
  have hcallless : Callless (margin ++ core) (literal.text ++ (rest.text ++ t)) := by
    apply callless_of_endsWith hunquoted (literal.isMarked _).isBoundary
    intro word hword hcall
    have hstatement : EndsWith "from" (margin ++ core) ∨ EndsWith "import" (margin ++ core) :=
      hends.imp (·.append margin) (·.append margin)
    exact absurd hcall (not_endsWith_of_statement hstatement hword)
  have hlast : literal.text.getLast? = some literal.mark := by
    rw [Literal.text, ← List.cons_append, List.getLast?_concat]
  have hscan : scan before 0 (margin ++ core ++ (literal.text ++ (rest.text ++ t))) =
      literal.name :: scan literal.text.getLast? 0 (rest.text ++ t) := by
    apply scan_of_place (by simp [Literal.text])
    · intro early late hsplit hlate found hfound
      have hline := atLineStart?_of_here? (hcallless early late hsplit hlate _) hfound
      have hname := (of_atLineStart? (hsplit ▸ hunquoted).of_append_right
        (literal.isMarked _) hline).2
      rw [literal.quotedAfterBlanks?] at hname
      exact (Option.some.inj hname).symm
    · exact ⟨margin, core, rfl, hnonempty, here?_of_atLineStart? hmargin.ends h⟩
  rw [← List.append_assoc, hscan, hlast, scan_rest hmark rest ht]

/-- A quotation mark begins no reference. -/
theorem scan_mark {c mark : Char} {s : List Char} (hc : c ≠ '\n') (hmark : isQuote mark = true) :
    scan (some c) 0 (mark :: s) = scan (some mark) 0 s := by
  have hcall := call_eq_none (some c) (s := []) (t := mark :: s) (by decide)
    (by simp [IsBoundary, hmark]) (by
      rintro word hword ⟨blanks, -, hnil⟩
      obtain ⟨chars, d, hchars, -⟩ := isSolid_of_mem hword
      rw [hchars] at hnil
      simp at hnil)
  have hhere : here? (some c) (mark :: s) = none :=
    here?_eq_none (fun hstart => absurd (hstart c rfl) hc) hcall
  rw [scan, hhere]

/-- A name without a parenthesis that was passed over, and the rest of its line, hold no
reference. -/
theorem scan_passed {c : Char} (hc : c ≠ '\n') (literal : Literal) (hname : '(' ∉ literal.name)
    (rest : Plain) (ht : IsBelow t) :
    scan (some c) 0 (literal.text ++ (rest.text ++ t)) = below t := by
  have hmark := ne_lineBreak_of_isQuote literal.isMark
  have hcallless : Callless literal.name (literal.mark :: (rest.text ++ t)) := by
    apply callless_of_endsWith literal.unquoted (by simp [IsBoundary, literal.isMark])
    rintro word hword ⟨early, late, hsplit, blanks, -, rfl⟩
    have hmem : '(' ∈ word.toList := by
      simp only [callWords, List.mem_cons, List.not_mem_nil, or_false] at hword
      rcases hword with rfl | rfl | rfl <;> decide
    exact absurd (by simp [hsplit, hmem]) hname
  obtain ⟨d, hd, hscan⟩ := scan_inLine hmark literal.oneLine hcallless
  have htext : literal.text ++ (rest.text ++ t) =
      literal.mark :: (literal.name ++ literal.mark :: (rest.text ++ t)) := by simp [Literal.text]
  rw [htext, scan_mark hc literal.isMark, hscan, scan_mark hd literal.isMark,
    scan_rest hmark rest ht]

/-- A statement whose clause is not set off is passed over. -/
theorem scan_unset (hmargin : ∀ c ∈ margin, isBlank c = true) (indent : Gap) (keyword : Keyword)
    (clause : Clause) (gap : Gap) (literal : Literal) (rest : Plain)
    (hblank : isBlank clause.first = false) (hname : '(' ∉ literal.name) (ht : IsBelow t) :
    scan before 0 (margin ++ (indent.text ++ (clause.statement keyword gap ++
      (literal.text ++ (rest.text ++ t))))) = below t := by
  have hline := atLineStart?_clause keyword clause gap literal (rest.text ++ t)
  rw [hblank, if_neg (by decide)] at hline
  have hmargins : ∀ c ∈ margin ++ indent.text, isBlank c = true :=
    List.forall_mem_append.mpr ⟨hmargin, indent.blank⟩
  have hfrom : EndsWith "from" (margin ++ indent.text ++ clause.statement keyword gap) :=
    (clause.statement_endsWith keyword gap).append _
  have hcallless : Callless (margin ++ indent.text ++ clause.statement keyword gap)
      (literal.text ++ (rest.text ++ t)) := by
    apply callless_of_endsWith _ (literal.isMarked _).isBoundary
    · intro word hword hends
      exact absurd hfrom (not_endsWith_of_call hword hends).1
    · exact (unquoted_of_blank hmargins).append (clause.unquoted_statement keyword gap)
  obtain ⟨c, hc, hscan⟩ := scan_line hmargins (clause.statement_ne_nil keyword gap)
    (clause.oneLine_statement keyword gap) hline hcallless
  rw [← List.append_assoc, ← List.append_assoc, hscan, scan_passed hc literal hname rest ht]

/-- What does not start like a statement is none. -/
theorem atLineStart?_other {core : List Char} (hsolid : core.dropWhile isBlank = core)
    (hnonempty : core ≠ []) (himport : ¬ "import".toList <+: core)
    (hexport : ¬ "export".toList <+: core) (ht : IsBelow t) : atLineStart? (core ++ t) = none := by
  have hword {word : String} (hbreak : '\n' ∉ word.toList) (hnot : ¬ word.toList <+: core) :
      afterWord? word (core ++ t) = none := by
    rw [Option.eq_none_iff_forall_ne_some]
    intro rest hrest
    have hhead : ∀ c ∈ t.head?, c ∉ word.toList := by
      intro c hc
      rw [ht.head c hc]
      exact hbreak
    obtain ⟨more, hmore, -⟩ := exists_of_afterWord? hhead hrest
    exact hnot ⟨more, hmore.symm⟩
  have hdrop : (core ++ t).dropWhile isBlank = core ++ t := by
    rw [List.dropWhile_append, hsolid, if_neg (by simpa [List.isEmpty_iff] using hnonempty)]
  rw [atLineStart?, hdrop]
  simp only [withClause?, bare?, hword (by decide) himport, hword (by decide) hexport,
    Option.none_or, Option.bind_none]

/-- A line without quotation marks that does not start like a statement holds no reference. -/
theorem scan_other (hmargin : ∀ c ∈ margin, isBlank c = true) (line : Plain)
    (himport : ¬ "import".toList <+: line.text.dropWhile isBlank)
    (hexport : ¬ "export".toList <+: line.text.dropWhile isBlank)
    (hsolid : ¬ ∀ c ∈ line.text, isBlank c = true) (ht : IsBelow t) :
    scan before 0 (margin ++ (line.text ++ t)) = below t := by
  have hsplit : line.text.takeWhile isBlank ++ line.text.dropWhile isBlank = line.text :=
    List.takeWhile_append_dropWhile
  have hmargins : ∀ c ∈ margin ++ line.text.takeWhile isBlank, isBlank c = true :=
    List.forall_mem_append.mpr ⟨hmargin, fun _ => List.mem_takeWhile_imp⟩
  have hnonempty : line.text.dropWhile isBlank ≠ [] := by
    simpa [List.dropWhile_eq_nil_iff] using hsolid
  have hbreak : '\n' ∉ line.text.dropWhile isBlank :=
    fun hmem => line.oneLine ((List.dropWhile_suffix isBlank).subset hmem)
  have hline :=
    atLineStart?_other (List.dropWhile_idempotent isBlank _) hnonempty himport hexport ht
  have hcallless : Callless (margin ++ line.text.takeWhile isBlank ++
      line.text.dropWhile isBlank) t := by
    rw [List.append_assoc, hsplit]
    exact callless_of_none ((unquoted_of_blank hmargin).append line.unquoted) ht.isBoundary
      ht.quotedAfterBlanks?
  have hwhole : margin ++ (line.text ++ t) =
      margin ++ line.text.takeWhile isBlank ++ line.text.dropWhile isBlank ++ t := by
    rw [List.append_assoc margin, hsplit, List.append_assoc]
  obtain ⟨c, hc, hscan⟩ := scan_line hmargins hnonempty hbreak hline hcallless
  rw [hwhole, hscan, scan_below hc ht]

end Statements

end FunctionPipeline.ModuleReference

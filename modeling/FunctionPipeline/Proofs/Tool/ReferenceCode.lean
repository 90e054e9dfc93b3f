import FunctionPipeline.Proofs.Tool.LineSearch

/-!
Code whose lines hold one reference each, or none. What is found on its lines adds up, so all names
are found in the order of the lines, but for those of the statements that are passed over.
-/

namespace FunctionPipeline.ModuleReference.Line

variable {before : Option Char} {margin t : List Char}

/-- Only a line without a reference can be blank. -/
theorem of_blank_opening {l : Line} (h : ∀ c ∈ l.opening, isBlank c = true) :
    l.name? = none ∧ l.ending = [] := by
  cases l with
  | other line => exact ⟨rfl, rfl⟩
  | withClause indent keyword clause gap literal rest =>
      exact absurd (h 'f' (by simp [opening, Clause.statement])) (by decide)
  | effects indent gap literal rest => exact absurd (h 'i' (by simp [opening])) (by decide)
  | importCall start gap literal close rest hstart =>
      exact absurd (h '(' (by simp [opening])) (by decide)
  | requireCall start underscored gap literal close rest hstart =>
      have hmem : '(' ∈ (requireWord underscored).toList := by cases underscored <;> decide
      exact absurd (h '(' (by simp [opening, hmem])) (by decide)

/-- No line starts with a quotation mark, nor do blank lines lead to one. -/
theorem quotedAfterBlanks?_text (l : Line) (ht : quotedAfterBlanks? t = none) :
    quotedAfterBlanks? (l.text ++ t) = none := by
  rw [text, List.append_assoc]
  apply quotedAfterBlanks?_eq_none l.unquoted_opening
  intro hblank
  rwa [(of_blank_opening hblank).2, List.nil_append]

/-- The reference on a line is found, whatever stands above it without quotation marks. -/
theorem scan_reference {l : Line} {name : List Char} (hmargin : IsMargin before margin)
    (hname : l.name? = some name) (hsetOff : l.isSetOff = true) (ht : IsBelow t) :
    scan before 0 (margin ++ (l.text ++ t)) = name :: below t := by
  cases l with
  | withClause indent keyword clause gap literal rest =>
      obtain rfl : literal.name = name := Option.some.inj hname
      have hblank : isBlank clause.first = true := hsetOff
      have hline := atLineStart?_clause keyword clause gap literal (rest.text ++ t)
      rw [if_pos hblank] at hline
      have hscan := scan_statement hmargin (indent.text ++ clause.statement keyword gap) literal
        rest (indent.unquoted.append (clause.unquoted_statement keyword gap))
        (List.append_ne_nil_of_right_ne_nil _ (clause.statement_ne_nil keyword gap))
        (.inl ((clause.statement_endsWith keyword gap).append _))
        (by rw [List.append_assoc, atLineStart?_append_blanks indent.blank, hline]) ht
      simpa [text, opening, ending] using hscan
  | effects indent gap literal rest =>
      obtain rfl : literal.name = name := Option.some.inj hname
      have hline := atLineStart?_effects gap literal (rest.text ++ t)
      have hword : Unquoted "import".toList := by decide
      have hends : EndsWith "import" ("import".toList ++ gap.text) :=
        ⟨[], _, rfl, gap.text, gap.blank, rfl⟩
      have hscan := scan_statement hmargin (indent.text ++ ("import".toList ++ gap.text)) literal
        rest (indent.unquoted.append (hword.append gap.unquoted)) (by simp) (.inr (hends.append _))
        (by rw [List.append_assoc, atLineStart?_append_blanks indent.blank, List.append_assoc,
          hline])
        ht
      simpa [text, opening, ending] using hscan
  | importCall start gap literal close rest hstart =>
      obtain rfl : literal.name = name := Option.some.inj hname
      have hscan := scan_importCall hmargin start gap literal close rest hstart ht
      simpa [text, opening, ending] using hscan
  | requireCall start underscored gap literal close rest hstart =>
      obtain rfl : literal.name = name := Option.some.inj hname
      have hscan := scan_requireCall hmargin start underscored gap literal close rest hstart ht
      simpa [text, opening, ending] using hscan
  | other line => cases hname

/-- A line on which nothing is to be found adds nothing. -/
theorem scan_unfound {l : Line} (hmargin : ∀ c ∈ margin, isBlank c = true) (hplain : l.IsPlain)
    (hfound : l.found? = none) (hsolid : ¬ ∀ c ∈ l.text, isBlank c = true) (ht : IsBelow t) :
    scan before 0 (margin ++ (l.text ++ t)) = below t := by
  cases l with
  | withClause indent keyword clause gap literal rest =>
      have hblank : isBlank clause.first = false := by
        rw [Bool.eq_false_iff]
        intro hblank
        have hname : some literal.name = none := (if_pos hblank).symm.trans hfound
        cases hname
      have hparen : '(' ∉ literal.name := hplain.resolve_left (by simp [hblank])
      have hscan : scan before 0 (margin ++ (indent.text ++ (clause.statement keyword gap ++
          (literal.text ++ (rest.text ++ t))))) = below t :=
        scan_unset hmargin indent keyword clause gap literal rest hblank hparen ht
      simpa [text, opening, ending] using hscan
  | other line =>
      have hscan : scan before 0 (margin ++ (line.text ++ t)) = below t :=
        scan_other hmargin line hplain.1 hplain.2 (by simpa [text, opening, ending] using hsolid) ht
      simpa [text, opening, ending] using hscan
  | effects | importCall | requireCall => cases hfound

/-- Lines with a line break in front of each. -/
def following (lines : List Line) : List Char := (lines.map fun l => '\n' :: l.text).flatten

theorem following_cons (l : Line) (lines : List Line) :
    following (l :: lines) = '\n' :: (l.text ++ following lines) := rfl

theorem isBelow_following (lines : List Line) : IsBelow (following lines) := by
  induction lines with
  | nil => exact .done
  | cons l lines ih => exact .more (quotedAfterBlanks?_text l ih.quotedAfterBlanks?)

theorem isMargin_line : IsMargin (some '\n') [] := isMargin_nil (by simp [StartsLine])

/-- A line without quotation marks is one more line of a margin. -/
theorem isMargin_append {s : List Char} (h : IsMargin before margin) (hs : Unquoted s) :
    IsMargin before (margin ++ (s ++ ['\n'])) where
  unquoted := h.unquoted.append (hs.append (by decide))
  ends := by
    rw [← List.append_assoc, List.getLast?_concat]
    simp [StartsLine]

theorem unquoted_of_name? {l : Line} (h : l.name? = none) : Unquoted l.text := by
  cases l with
  | other line =>
      rw [text, ending, List.append_nil]
      exact line.unquoted
  | withClause | effects | importCall | requireCall => cases h

theorem text_append_following (l next : Line) (lines : List Line) :
    margin ++ (l.text ++ following (next :: lines)) =
      margin ++ (l.text ++ ['\n']) ++ (next.text ++ following lines) := by
  simp [following_cons]

/-- Where all clauses are set off, all references are found. Lines without one may start like a
statement that the next line takes up, so the induction takes them all into the margin. -/
theorem scan_setOff (l : Line) (lines : List Line) (hmargin : IsMargin before margin)
    (hsetOff : ∀ line ∈ l :: lines, line.isSetOff = true) :
    scan before 0 (margin ++ (l.text ++ following lines)) = (l :: lines).filterMap name? := by
  obtain ⟨hfirst, hothers⟩ := List.forall_mem_cons.mp hsetOff
  clear hsetOff
  rw [List.filterMap_cons]
  induction lines generalizing l before margin with
  | nil =>
      cases hname : l.name? with
      | some name => exact scan_reference hmargin hname hfirst (isBelow_following [])
      | none =>
          rw [following, List.map_nil, List.flatten_nil, List.append_nil]
          exact scan_of_unquoted (hmargin.unquoted.append (unquoted_of_name? hname))
  | cons next lines ih =>
      obtain ⟨hnext, hlater⟩ := List.forall_mem_cons.mp hothers
      rw [List.filterMap_cons]
      cases hname : l.name? with
      | some name =>
          rw [scan_reference hmargin hname hfirst (isBelow_following _), following_cons, below]
          exact congrArg (name :: ·) (ih next isMargin_line hnext hlater)
      | none =>
          rw [text_append_following]
          exact ih next (isMargin_append hmargin (unquoted_of_name? hname)) hnext hlater

theorem found?_of_blank {l : Line} (h : ∀ c ∈ l.text, isBlank c = true) : l.found? = none := by
  have hname := (of_blank_opening fun c hc => h c (List.mem_append_left _ hc)).1
  rw [found?, hname, ite_self]

/-- What a line that is not blank adds to what is found below it. -/
theorem scan_line_text (l : Line) (hmargin : ∀ c ∈ margin, isBlank c = true)
    (hends : StartsLine (margin.getLast?.or before)) (hplain : l.IsPlain)
    (hsolid : ¬ ∀ c ∈ l.text, isBlank c = true) (ht : IsBelow t) :
    scan before 0 (margin ++ (l.text ++ t)) = l.found?.toList ++ below t := by
  cases hfound : l.found? with
  | none => exact scan_unfound hmargin hplain hfound hsolid ht
  | some name =>
      obtain ⟨hsetOff, hname⟩ := Option.ite_none_right_eq_some.mp hfound
      exact scan_reference ⟨unquoted_of_blank hmargin, hends⟩ hname hsetOff ht

theorem filterMap_found?_cons (l : Line) (lines : List Line) :
    (l :: lines).filterMap found? = l.found?.toList ++ lines.filterMap found? := by
  cases hfound : l.found? <;> simp [hfound]

/-- Where lines without a reference do not start like one, all references but those that are not
set off are found. White space above a line is read with it, so the induction takes blank lines into
the margin. -/
theorem scan_plain (l : Line) (lines : List Line) (hmargin : ∀ c ∈ margin, isBlank c = true)
    (hends : StartsLine (margin.getLast?.or before)) (hplain : ∀ line ∈ l :: lines, line.IsPlain) :
    scan before 0 (margin ++ (l.text ++ following lines)) = (l :: lines).filterMap found? := by
  obtain ⟨hfirst, hothers⟩ := List.forall_mem_cons.mp hplain
  clear hplain
  rw [filterMap_found?_cons]
  induction lines generalizing l before margin with
  | nil =>
      by_cases hblank : ∀ c ∈ l.text, isBlank c = true
      · rw [found?_of_blank hblank, following, List.map_nil, List.flatten_nil, List.append_nil]
        exact scan_of_unquoted (unquoted_of_blank (List.forall_mem_append.mpr ⟨hmargin, hblank⟩))
      · exact l.scan_line_text hmargin hends hfirst hblank (isBelow_following [])
  | cons next lines ih =>
      obtain ⟨hnext, hlater⟩ := List.forall_mem_cons.mp hothers
      rw [filterMap_found?_cons]
      by_cases hblank : ∀ c ∈ l.text, isBlank c = true
      · have hbreak : ∀ c ∈ ['\n'], isBlank c = true := List.forall_mem_singleton.mpr rfl
        have hmore : ∀ c ∈ margin ++ (l.text ++ ['\n']), isBlank c = true :=
          List.forall_mem_append.mpr ⟨hmargin, List.forall_mem_append.mpr ⟨hblank, hbreak⟩⟩
        have hline := (isMargin_append ⟨unquoted_of_blank hmargin, hends⟩
          (unquoted_of_blank hblank)).ends
        rw [found?_of_blank hblank, text_append_following]
        exact ih next hmore hline hnext hlater
      · rw [l.scan_line_text hmargin hends hfirst hblank (isBelow_following _), following_cons,
          below]
        exact congrArg _ (ih next (by simp) isMargin_line.ends hnext hlater)

def code (lines : List Line) : String := String.ofList (['\n'].intercalate (lines.map text))

theorem intercalate_text (l : Line) (lines : List Line) :
    ['\n'].intercalate ((l :: lines).map text) = l.text ++ following lines := by
  induction lines generalizing l with
  | nil => simp [following]
  | cons next lines ih =>
      have hnext := ih next
      rw [List.map_cons] at hnext ⊢
      rw [List.map_cons, List.intercalate_cons_cons, hnext, following_cons]
      simp

theorem moduleReferences_eq {lines : List Line} {names : Line → Option (List Char)}
    (h : ∀ l rest, lines = l :: rest → scan none 0 (l.text ++ following rest) =
      lines.filterMap names) :
    moduleReferences (code lines) = ((lines.filterMap names).map String.ofList).eraseDups := by
  cases lines with
  | nil => rfl
  | cons l rest =>
      rw [moduleReferences, code, String.toList_ofList, intercalate_text, h l rest rfl]

/-- In code with one reference on each line, or none, the names of all modules are found in order,
each once, if all clauses are set off. If they are not, but lines without a reference do not start
like one, just the others are found. -/
theorem moduleReferences_code (lines : List Line) :
    ((∀ l ∈ lines, l.isSetOff = true) → moduleReferences (code lines) =
        ((lines.filterMap name?).map String.ofList).eraseDups) ∧
      ((∀ l ∈ lines, l.IsPlain) → moduleReferences (code lines) =
        ((lines.filterMap found?).map String.ofList).eraseDups) := by
  have hstart : IsMargin none [] := isMargin_nil (by simp [StartsLine])
  constructor
  · intro hsetOff
    apply moduleReferences_eq
    rintro l rest rfl
    exact scan_setOff l rest hstart hsetOff
  · intro hplain
    apply moduleReferences_eq
    rintro l rest rfl
    exact scan_plain l rest (by simp) hstart.ends hplain

def plain (s : String) (h : Unquoted s.toList ∧ '\n' ∉ s.toList) : Plain := ⟨s.toList, h.1, h.2⟩

def gap (s : String) (h : s.toList.all isBlank = true ∧ '\n' ∉ s.toList) : Gap :=
  ⟨s.toList, List.all_eq_true.mp h.1, h.2⟩

def literal (name : String)
    (h : name.toList ≠ [] ∧ Unquoted name.toList ∧ '\n' ∉ name.toList) : Literal :=
  ⟨'"', name.toList, rfl, h.1, h.2.1, h.2.2⟩

def setOffClause : Clause :=
  ⟨' ', "{a}".toList, by decide, by rintro _ ⟨⟩; rfl, by decide, by decide, by decide⟩

def unsetClause : Clause :=
  ⟨'{', "a\x7d".toList, by decide, by rintro _ ⟨⟩; rfl, by decide, by decide, by decide⟩

/-- Lines of all kinds. One without a reference starts like a statement. -/
def setOffLines : List Line :=
  [.withClause (gap "  " (by decide)) .exports setOffClause (gap "" (by decide))
      (literal "./a" (by decide)) (plain ";" (by decide)),
    .other (plain "" (by decide)), .other (plain "import x" (by decide)),
    .effects (gap "" (by decide)) (gap "" (by decide)) (literal "./b" (by decide))
      (plain "" (by decide)),
    .importCall (plain "c = await " (by decide)) (gap " " (by decide)) (literal "./c" (by decide))
      (gap "" (by decide)) (plain ";" (by decide)) (by rintro _ ⟨⟩; rfl),
    .requireCall (plain "f(" (by decide)) true (gap "" (by decide)) (literal "./a" (by decide))
      (gap " " (by decide)) (plain ")" (by decide)) (by rintro _ ⟨⟩; rfl)]

def unsetLine : Line :=
  .withClause (gap "" (by decide)) .imports unsetClause (gap "" (by decide))
    (literal "x" (by decide)) (plain "" (by decide))

theorem moduleReferences_code_setOff :
    ((∀ l ∈ setOffLines, l.isSetOff = true) ∧
      code setOffLines = "  export {a}from\"./a\";\n\nimport x\nimport\"./b\"\n" ++
        "c = await import( \"./c\");\nf(__require(\"./a\" ))" ∧
      moduleReferences (code setOffLines) = ["./a", "./b", "./c"]) ∧
    ((∀ l ∈ [unsetLine, .other (plain "var x" (by decide))], l.IsPlain) ∧
      moduleReferences (code [unsetLine, .other (plain "var x" (by decide))]) = []) := by
  have hsetOff : ∀ l ∈ setOffLines, l.isSetOff = true := by decide
  have hplain : ∀ l ∈ [unsetLine, .other (plain "var x" (by decide))], l.IsPlain := by
    decide
  refine ⟨⟨hsetOff, by decide +kernel, ?_⟩, hplain, ?_⟩
  · rw [(moduleReferences_code setOffLines).1 hsetOff]
    decide +kernel
  · rw [(moduleReferences_code _).2 hplain]
    rfl

/-- An import whose clause is not set off refers to a module that is not found. -/
theorem moduleReferences_unset :
    unsetLine.name? = some ['x'] ∧ code [unsetLine] = "import{a}from\"x\"" ∧
      moduleReferences (code [unsetLine]) = [] := by
  decide +kernel

end FunctionPipeline.ModuleReference.Line

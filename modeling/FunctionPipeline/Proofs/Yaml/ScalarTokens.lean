import FunctionPipeline.Proofs.Yaml.Indicators
import FunctionPipeline.Proofs.Yaml.WrittenText

/-!
Tokens of scalars. A scalar at the end of a line is one token, in whichever style it is written; a
key on one line is recognised at its colon, and puts the tokens of its mapping in front of its own.
-/

namespace FunctionPipeline.Yaml

def textToken (place : Place) (s : List Char) : Token :=
  .scalar (chooseStyle place s == .plain) s

namespace Plain

variable {c : Cursor} {s t : List Char}

/-- The gap at the end of a line reaches to the first character of the next one. -/
theorem gap_newline (h : c.rest = '\n' :: t) (ht : Goes t) : ∃ text,
    gap c = ⟨text, true, Cursor.skipSpaces ⟨t, c.index + 1, c.line + 1, 0⟩⟩ := by
  have htaken : c.takeWhile (fun d => decide (d = ' ')) = ([], c) :=
    Cursor.takeWhile_none fun d hd => by
      rw [h] at hd
      cases hd
      rfl
  simp only [gap, htaken, Cursor.lineEnd?_newline h, Cursor.next_newline h]
  by_cases hmarker : (Cursor.mk t (c.index + 1) (c.line + 1) 0).atMarker = true
  · have hspaces : (Cursor.mk t (c.index + 1) (c.line + 1) 0).skipSpaces =
        ⟨t, c.index + 1, c.line + 1, 0⟩ := by
      apply Cursor.skipSpaces_of_not
      intro hspace
      cases t with
      | nil => cases hspace
      | cons d t =>
          cases hspace
          rw [Cursor.atMarker_of_not rfl (Or.inl (by decide))] at hmarker
          cases hmarker
    exact ⟨[], by rw [if_pos hmarker, hspaces]⟩
  · rw [if_neg hmarker]
    cases t with
    | nil => exact ⟨_, rfl⟩
    | cons d t =>
        have hline : (Cursor.mk (d :: t) (c.index + 1) (c.line + 1) 0).skipSpaces.lineEnd? = none :=
          Cursor.lineEnd?_of_not fun ch hch => by
            rw [Cursor.skipSpaces_eq] at hch
            exact isLineEnd_of_isPrintable (ht ch hch).1
        exact ⟨_, by simp only [List.length_cons, gapBreaks?, hline]; rfl⟩

theorem gap_none {ch : Char} (h : c.rest = ch :: t) (hch : isPrintable ch = true)
    (hspace : ch ≠ ' ') : gap c = ⟨[], false, c⟩ :=
  gap_spaces (show c.rest = [] ++ ch :: t from h) (fun d hd => by cases hd) hch hspace

/-- A plain key is not taken for the line between two documents. -/
private theorem atMarker_key (h : c.rest = s ++ ':' :: t) (hnonempty : s ≠ [])
    (hmarker : Analysis.leadsLikeMarker s = false) : c.atMarker = false := by
  obtain ⟨a, s, rfl⟩ := List.exists_cons_of_ne_nil hnonempty
  by_cases ha : a = '-' ∨ a = '.'
  · -- the second or the third character is another one
    have hother : ':' ≠ a := by
      rcases ha with rfl | rfl <;> decide
    match s with
    | [] => exact Cursor.atMarker_of_not h (Or.inr (by simpa using hother))
    | [b] =>
        by_cases hb : b = a
        · subst hb
          simp [Cursor.atMarker, h, Ne.symm hother]
        · exact Cursor.atMarker_of_not h (Or.inr (by simpa using hb))
    | b :: d :: s =>
        have hdiffers : ¬ (a = b ∧ b = d) := by
          rintro ⟨rfl, rfl⟩
          rcases ha with rfl | rfl <;> simp [Analysis.leadsLikeMarker] at hmarker
        simp only [Cursor.atMarker, h, List.cons_append, Bool.and_eq_false_iff,
          decide_eq_false_iff_not]
        exact Or.inl (Or.elim (Decidable.not_and_iff_or_not.mp hdiffers) (Or.inl ∘ Or.inr) Or.inr)
  · exact Cursor.atMarker_of_not h (Or.inl (not_or.mp ha))

end Plain

namespace Lexer.Ends

variable {c : Cursor} {found found' f : List Token} {indent : Int} {indents indents' : List Int}
  {allowKey : Bool} {s t : List Char}

/-- A reader that took a scalar: the key that may have begun there is pending. -/
private theorem pending_line {c d : Cursor} {found : List Token} {k : Nat} {allowKey : Bool}
    (hk : k < c.column) (hline : c.line ≤ d.line) :
    ∀ e ∈ (if allowKey then [(0, keyAt c found k)] else [] : List (Nat × PendingKey)),
      e.2.required = false ∧ e.2.line ≤ d.line := by
  intro e he
  cases allowKey with
  | false => cases he
  | true =>
      cases List.mem_singleton.mp he
      refine ⟨?_, hline⟩
      simp only [keyAt, beq_eq_false_iff_ne, ne_eq]
      omega

private theorem fetch_plain {fold : Bool} {column n : Nat} (hs : Plain.IsUnbroken s)
    (hlead : Analysis.leadsWithIndicator s = false)
    (h : c.rest = Plain.write fold n column s ++ t)
    (hmarker : c.column = 0 → c.atMarker = false) :
    (bare c found indent indents allowKey).fetch =
      (bare c found indent indents allowKey).plainScalar := by
  obtain ⟨d, w, hw, hprintable, hspace, -, hindicator, hnext⟩ :=
    Plain.write_lead fold n column t hs hlead
  rw [hw, List.cons_append] at h
  obtain ⟨hpeek, hpeek'⟩ := peeks h
  generalize (w ++ t).head? = next at hpeek' hnext
  have hstarts : startsPlain false d next = true := by
    have hseparating := isSeparating_of_isPrintable hprintable hspace
    simp only [startsPlain, hseparating, Bool.false_eq_true, if_false, Bool.not_false,
      Bool.true_and]
    split
    · next heq => rw [hnext (Or.inr (Or.inr heq))]; rfl
    · split
      · next heq =>
          simp only [Bool.or_eq_true, decide_eq_true_eq] at heq
          rw [hnext (heq.elim Or.inl (Or.inr ∘ Or.inl))]
          rfl
      · simp [hindicator]
  have hnot (ch : Char) (hch : ch = '?' ∨ ch = ':' ∨ ch = '-') :
      ¬ (d = ch ∧ separates next = true) := by
    rintro ⟨rfl, hseparated⟩
    rw [hnext hch] at hseparated
    cases hseparated
  have hmarked : ¬ (c.column = 0 ∧ c.atMarker = true) := by
    rintro ⟨hcolumn, hat⟩
    rw [hmarker hcolumn] at hat
    cases hat
  simp only [Analysis.isLeadIndicator, List.contains_cons, List.contains_nil, Bool.or_eq_false_iff,
    beq_eq_false_iff_ne, ne_eq] at hindicator
  simp [fetch, bare, hpeek, hpeek', hmarked, hindicator, hnot, hstarts]

private theorem plainScalar_bare {d : Cursor} {ended : Bool}
    (hread : Plain.read false (indent + 1) c = (s, ended, d)) :
    (bare c found indent indents allowKey).plainScalar =
      some ⟨d, .scalar true s :: found, 0, indent, indents, ended,
        if allowKey then [(0, keyAt c found indent)] else []⟩ := by
  rw [plainScalar, saveKey_bare]
  simp [bare, hread, scalar, push, moveTo]

/-- A plain scalar at the end of a line. -/
theorem plain_line {fold : Bool} {k column : Nat} (hs : Plain.IsUnbroken s)
    (hlead : Analysis.leadsWithIndicator s = false)
    (h : c.rest = Plain.write fold (k + 2) column s ++ '\n' :: t) (hk : k < c.column)
    (ht : Outdented k t)
    (hends : ∀ index line, Ends (fresh t index line (.scalar true s :: found) k indents) f) :
    Ends (bare c found k indents allowKey) f := by
  obtain ⟨d, w, hw, hprintable, hspace, hsign, -, -⟩ :=
    Plain.write_lead fold (k + 2) column t hs hlead
  have hfetch : (bare c found k indents allowKey).fetch =
      (bare c found k indents allowKey).plainScalar := fetch_plain hs hlead h fun hzero => by omega
  have hread : Plain.read false ((k : Int) + 1) c = _ :=
    Plain.read_write hs (by omega) (by omega) (by rfl) (fun e he => ?_) (by omega) h
  · have hend := Cursor.rest_forward_append h
    have hbelow := Cursor.line_le_forward (Plain.write fold (k + 2) column s).length c
    generalize c.forward (Plain.write fold (k + 2) column s).length = e at hread hend hbelow
    obtain ⟨text, hgap⟩ := Plain.gap_newline hend ht.goes
    rw [hgap] at hread
    refine .step (ready_bare_here (by rw [h, hw]; rfl) hprintable hspace hsign (by omega))
      (hfetch.trans (plainScalar_bare hread)) (readable_cons _ (by simp)) ?_
      ((hends _ _).of_ready (ready_skipped rfl ht.goes rfl rfl fun p hp => ?_))
    · apply Nat.lt_of_le_of_lt (Cursor.length_skipWhile (· = ' ') _)
      change t.length < c.rest.length
      rw [h]
      simp
      omega
    · obtain ⟨hrequired, hline⟩ := pending_line hk hbelow p hp
      exact ⟨hrequired, Nat.lt_succ_of_le hline⟩
  · obtain ⟨text, hgap⟩ := Plain.gap_newline he ht.goes
    have hspaces := ht.spaces
    rw [hgap, Cursor.skipSpaces_eq]
    exact Or.inr (by simp only; omega)

/-- What a quoted scalar is read by. -/
private theorem quoted_bare {written : List Char} {double : Bool}
    (hread : if double then DoubleQuoted.read c = .ok (s, c.forward written.length)
      else SingleQuoted.read c = some (s, c.forward written.length)) :
    (bare c found indent indents allowKey).quoted double =
      some ⟨c.forward written.length, .scalar false s :: found, 0, indent, indents, false,
        if allowKey then [(0, keyAt c found indent)] else []⟩ := by
  rw [quoted, saveKey_bare]
  cases double with
  | false =>
      simp only [Bool.false_eq_true, if_false] at hread
      simp [bare, hread, scalar, push, moveTo]
  | true =>
      simp only [if_true] at hread
      simp [bare, hread, scalar, push, moveTo]

/-- The quote that a scalar is written in. -/
private theorem fetch_quoted (double : Bool) {q : Char} (h : c.rest = q :: t)
    (hq : q = if double then '"' else '\'') :
    (bare c found indent indents allowKey).fetch =
      (bare c found indent indents allowKey).quoted double := by
  obtain ⟨hpeek, hpeek'⟩ := peeks h
  cases double with
  | false =>
      subst hq
      have hmarker := Cursor.atMarker_of_not h (Or.inl (by decide))
      simp [fetch, bare, hpeek, hmarker]
  | true =>
      subst hq
      have hmarker := Cursor.atMarker_of_not h (Or.inl (by decide))
      simp [fetch, bare, hpeek, hmarker]

/-- A quoted scalar at the end of a line. -/
private theorem quoted_line (double : Bool) {written w : List Char} {q : Char} {k : Nat}
    (hwritten : written = q :: w) (hq : q = if double then '"' else '\'')
    (h : c.rest = written ++ '\n' :: t) (hk : k < c.column) (ht : Goes t)
    (hread : if double then DoubleQuoted.read c = .ok (s, c.forward written.length)
      else SingleQuoted.read c = some (s, c.forward written.length))
    (hends : ∀ index line, Ends (fresh t index line (.scalar false s :: found) k indents) f) :
    Ends (bare c found k indents allowKey) f := by
  have hquote : c.rest = q :: (w ++ '\n' :: t) := by rw [h, hwritten]; rfl
  have hprintable : isPrintable q = true ∧ q ≠ ' ' ∧ q ≠ '#' := by
    subst hq
    cases double <;> decide
  have hend := Cursor.rest_forward_append h
  refine .step (ready_bare_here hquote hprintable.1 hprintable.2.1 hprintable.2.2 (by omega))
    ((fetch_quoted double hquote hq).trans (quoted_bare hread)) (readable_cons _ (by simp)) ?_
    ((hends _ _).of_ready (ready_newline hend ht rfl ?_))
  · change (c.forward written.length).rest.length < c.rest.length
    rw [hend, hquote]
    simp only [List.length_append, List.length_cons]
    omega
  · exact pending_line hk (Cursor.line_le_forward _ c)

/-- A literal block, with the lines after its indicators. -/
theorem block_lines {k : Nat} (hs : IsLined s) (hnonempty : s ≠ [])
    (h : c.rest = Literal.write (k + 2) s ++ t) (hk : k < c.column) (ht : Outdented k t)
    (hends : ∀ index line, Ends (fresh t index line (.scalar false s :: found) k indents) f) :
    Ends (bare c found k indents allowKey) f := by
  have hbar : c.rest = '|' :: (Literal.hints s ++ '\n' ::
      (Literal.writeLines (k + 2) true s ++ t)) := by
    rw [h, Literal.write]
    simp
  obtain ⟨index, line, -, hread⟩ := @Block.read_write (k + 2) t s k k c.next hs hnonempty (by omega)
    ht (by omega) (by rw [Cursor.rest_next, hbar]; rfl)
  obtain ⟨hpeek, hpeek'⟩ := peeks hbar
  have hmarker := Cursor.atMarker_of_not hbar (Or.inl (by decide))
  have hfetch : (bare c found k indents allowKey).fetch =
      some ⟨Cursor.skipSpaces ⟨t, index, line, 0⟩, .scalar false s :: found, 0, k, indents, true,
        []⟩ := by
    have hblock : (bare c found k indents allowKey).fetch =
        (bare c found k indents allowKey).block false := by
      simp [fetch, bare, hpeek, hmarker]
    rw [hblock, block]
    simp [bare, dropKey, hread, scalar, push, moveTo]
  refine .step (ready_bare_here hbar (by decide) (by decide) (by decide) (by omega)) hfetch
    (readable_cons _ (by simp)) ?_
    ((hends _ _).of_ready (ready_skipped rfl ht.goes rfl rfl fun p hp => by cases hp))
  apply Nat.lt_of_le_of_lt (Cursor.length_skipWhile (· = ' ') _)
  change t.length < c.rest.length
  rw [hbar]
  simp
  omega

/-- A text at the end of a line, or on the lines after it, is its token. -/
theorem text_line {k column : Nat} (hs : isKept .block (k + 2) s = true)
    (h : c.rest = scalarLine (k + 2) column s ++ t) (hk : k < c.column) (ht : Outdented k t)
    (hends : ∀ index line, Ends (fresh t index line (textToken .block s :: found) k indents) f) :
    Ends (bare c found k indents allowKey) f := by
  obtain ⟨hnext, hfolds⟩ := isKept_iff.mp hs
  unfold scalarLine writeScalar at h
  unfold textToken at hends
  cases hstyle : chooseStyle .block s with
  | plain =>
      have hplain := readsPlainly_of_style hstyle
      rw [hstyle] at h hends
      exact plain_line hplain.unbroken hplain.lead (by simpa using h) hk ht hends
  | singleQuoted =>
      rw [hstyle] at h hends
      have hline : c.rest = SingleQuoted.write true (k + 2) column s ++ '\n' :: t := by
        simpa using h
      exact quoted_line false rfl rfl hline hk ht.goes
        (SingleQuoted.read_write (by omega)
          (isQuotable_of_singleQuoted (hnext (Or.inl hstyle)) hstyle) (by simp) hline) hends
  | doubleQuoted =>
      rw [hstyle] at h hends
      have hline : c.rest = DoubleQuoted.write true (k + 2) column s ++ '\n' :: t := by
        simpa using h
      exact quoted_line true rfl rfl hline hk ht.goes
        (DoubleQuoted.read_write (by omega) (hfolds hstyle) hline) hends
  | literal =>
      rw [hstyle] at h hends
      obtain ⟨-, hnonempty, hlined⟩ := of_literal hstyle
      exact block_lines (hlined (hnext (Or.inr hstyle))) hnonempty (by simpa using h) hk ht hends

/-- A key before its colon: the token that was found, with the key pending. -/
private theorem fetch_key {m : Nat} (hcolumn : c.column = m) (hindent : indent ≤ m)
    (h : c.rest = writeScalar .simpleKey (m + 2) m s ++ ':' :: t) (ht : separates t.head? = true) :
    (bare c found indent indents true).fetch =
      some ⟨c.forward (writeScalar .simpleKey (m + 2) m s).length,
        textToken .simpleKey s :: found, 0, indent, indents, false,
        [(0, keyAt c found indent)]⟩ := by
  unfold writeScalar at h ⊢
  unfold textToken
  cases hstyle : chooseStyle .simpleKey s with
  | plain =>
      have hplain := readsPlainly_of_style hstyle
      have hline : c.rest = Plain.write false (m + 2) m s ++ ':' :: t := by simpa [hstyle] using h
      have hmarker : c.column = 0 → c.atMarker = false := fun _ =>
        Plain.atMarker_key (by rw [hline, Plain.write_line]) hplain.unbroken.nonempty hplain.marker
      have hstops : Plain.StopsRun (':' :: t) := by
        simp [Plain.StopsRun, Plain.runLength, ht]
      have hread : Plain.read false (indent + 1) c = _ :=
        Plain.read_write hplain.unbroken (by omega) (by omega) hstops (fun e he => Or.inl ?_)
          (by omega) hline
      · rw [Plain.gap_none (Cursor.rest_forward_append hline) (by decide) (by decide)] at hread
        rw [fetch_plain hplain.unbroken hplain.lead hline hmarker, plainScalar_bare hread]
        rfl
      · rw [Plain.gap_none he (by decide) (by decide)]
        rfl
  | singleQuoted =>
      have hline : c.rest = SingleQuoted.write false (m + 2) m s ++ ':' :: t := by
        simpa [hstyle] using h
      have hread := SingleQuoted.read_write (by omega)
        (.of_printable (printable_of_singleQuoted hstyle)) (by simp) hline
      rw [fetch_quoted false hline rfl]
      exact quoted_bare hread
  | doubleQuoted =>
      have hline : c.rest = DoubleQuoted.write false (m + 2) m s ++ ':' :: t := by
        simpa [hstyle] using h
      have hread := DoubleQuoted.read_write (by omega) (fun hfold => by cases hfold) hline
      rw [fetch_quoted true hline rfl]
      exact quoted_bare hread
  | literal => cases (of_literal hstyle).1

private theorem colon_key {d : Cursor} {token : Token}
    (hopens : Opens .blockMappingStart c.column found indent indents found' indents') :
    Lexer.colon ⟨d, token :: found, 0, indent, indents, false, [(0, keyAt c found indent)]⟩ =
      some (bare d.next (.value :: token :: .key :: found') c.column indents' false) := by
  generalize hcolumn : c.column = column at hopens
  cases hopens with
  | inner => simp [Lexer.colon, openBlock, insertBelow, single, push, bare, keyAt, hcolumn]
  | outer _ _ hless =>
      simp [Lexer.colon, openBlock, hless, insertBelow, single, push, bare, keyAt, hcolumn]

/-- A key on one line begins its mapping if that is not open yet. Beyond its length a key is given
up before its colon. -/
theorem simpleKey (hlength : (writeScalar .simpleKey 0 0 s).length ≤ 1024)
    (hopens : Opens .blockMappingStart c.column found indent indents found' indents')
    (h : c.rest = writeScalar .simpleKey (c.column + 2) c.column s ++ ':' :: t)
    (ht : separates t.head? = true)
    (hends : Ends (bare (c.forward ((writeScalar .simpleKey (c.column + 2) c.column s).length + 1))
      (.value :: textToken .simpleKey s :: .key :: found') c.column indents' false) f) :
    Ends (bare c found indent indents true) f := by
  have hfetch : (bare c found indent indents true).fetch = _ := fetch_key rfl hopens.le h ht
  have hplace := Cursor.forward_printable h (printable_simpleKey s c.column)
  rw [← writeScalar_simpleKey (c.column + 2) c.column] at hlength
  obtain ⟨e, w, hw, hprintable, hspace, hsign⟩ :=
    writeScalar_head .simpleKey s (c.column + 2) c.column
  have hstart : c.rest = e :: (w ++ ':' :: t) := by rw [h, hw]; rfl
  rw [Cursor.forward_add, Cursor.forward_one] at hends
  -- two steps: the key is kept as a possible one, and the colon then makes it a key
  have hle := hopens.le
  have hpositive : 0 < (writeScalar .simpleKey (c.column + 2) c.column s).length := by simp [hw]
  generalize writeScalar .simpleKey (c.column + 2) c.column s = written at *
  have hcolon : (c.forward written.length).rest = ':' :: t := by rw [hplace]
  have hmarker := Cursor.atMarker_of_not hcolon (Or.inl (by decide))
  obtain ⟨hpeek, hpeek'⟩ := peeks hcolon
  have hfetch' (x : Lexer) (hx : x.cursor = c.forward written.length) : x.fetch = x.colon := by
    simp [fetch, hx, hpeek, hpeek', hmarker, ht]
  refine .step (ready_bare_here hstart hprintable hspace hsign hle) hfetch
    (readable_cons _ (by simp [textToken])) ?_ ?_
  · change (c.forward written.length).rest.length < c.rest.length
    rw [hcolon, h]
    simp
    omega
  · refine .step (ready_here hcolon (by decide) (by decide) (by decide) ?_ (Or.inr ?_))
      ((hfetch' _ rfl).trans (colon_key hopens)) (readable_cons _ (by simp)) (length_next hcolon)
      hends
    · intro p hp
      cases List.mem_singleton.mp hp
      simp only [isStale, keyAt, hplace, Bool.or_eq_false_iff, bne_self_eq_false,
        decide_eq_false_iff_not, true_and]
      omega
    · change indent ≤ (c.forward written.length).column
      rw [hplace]
      simp only
      omega

end Lexer.Ends

end FunctionPipeline.Yaml

import FunctionPipeline.Yaml.Token
import FunctionPipeline.Proofs.Yaml.LiteralBlocks

/-!
Runs of the reader of tokens. A step depends on its reader only through `Lexer.ready`, the reader at
the next token: so places that differ in blanks, in a key that is no longer pending or in blocks
that end there are one place to a run. `Lexer.Ends` says to which tokens a run comes, without its
fuel.
-/

namespace FunctionPipeline.Yaml

namespace Lexer

/-- The reader at the next token: what a step does before it takes one. -/
def ready (x : Lexer) : Option Lexer := do
  let x ← (x.toNext (x.cursor.rest.length + 1)).dropStale
  return x.unwind x.cursor.column

def IsReadable (found : List Token) : Prop := ∀ cause, found.head? ≠ some (.unreadable cause)

/-- The run from a reader ends with these tokens, last one first. -/
inductive Ends : Lexer → List Token → Prop where
  | stop {x y z : Lexer} (hready : ready x = some y) (hend : y.cursor.rest = [])
      (hkey : (y.unwind (-1)).dropKey = some z) : Ends x z.found
  | step {x y z : Lexer} {f : List Token} (hready : ready x = some y) (hfetch : y.fetch = some z)
      (hreadable : IsReadable z.found) (hless : z.cursor.rest.length < y.cursor.rest.length)
      (hends : Ends z f) : Ends x f

theorem settle_of_readable {x : Lexer} (h : IsReadable x.found) (count : Nat) :
    x.settle count = x := by
  unfold settle
  split
  · next cause found hfound => exact absurd (by rw [hfound]; rfl) (h cause)
  · rfl

theorem run_succ (fuel : Nat) (x : Lexer) :
    run (fuel + 1) x = (ready x).bind fun y =>
      if y.cursor.rest.isEmpty then (y.unwind (-1)).dropKey
      else y.fetch.bind fun z => run fuel (z.settle x.certain) := by
  simp only [run, ready, Option.bind_eq_bind, Option.pure_def, Option.bind_assoc, Option.bind_some]

theorem length_toNext (fuel : Nat) (x : Lexer) :
    (x.toNext fuel).cursor.rest.length ≤ x.cursor.rest.length := by
  induction fuel generalizing x with
  | zero => exact Nat.le_refl _
  | succ fuel ih =>
      have hcomment (c : Cursor) :
          (if c.peek = some '#' then c.skipLine else c).rest.length ≤ c.rest.length := by
        split
        · exact Cursor.length_skipWhile _ c
        · exact Nat.le_refl _
      have hskipped := Nat.le_trans (hcomment x.cursor.skipSpaces)
        (Cursor.length_skipWhile (· = ' ') x.cursor)
      simp only [toNext]
      split
      · next ch c hline =>
          exact Nat.le_trans (ih _) (Nat.le_trans (Cursor.length_lineEnd? hline) hskipped)
      · exact hskipped

private theorem cursor_unwind (x : Lexer) (column : Int) : (x.unwind column).cursor = x.cursor := by
  unfold unwind
  split <;> rfl

theorem length_ready {x y : Lexer} (h : ready x = some y) :
    y.cursor.rest.length ≤ x.cursor.rest.length := by
  obtain ⟨z, hstale, hunwind⟩ := Option.bind_eq_some_iff.mp h
  have hcursor : z.cursor = (x.toNext (x.cursor.rest.length + 1)).cursor := by
    unfold dropStale at hstale
    split at hstale
    · cases hstale
    · cases hstale
      rfl
  cases hunwind
  rw [cursor_unwind, hcursor]
  exact length_toNext _ _

/-- A run that ends does so with any fuel for the length of the text. -/
theorem Ends.run {x : Lexer} {f : List Token} (h : Ends x f) :
    ∀ fuel, x.cursor.rest.length < fuel → ∃ z, run fuel x = some z ∧ z.found = f := by
  induction h with
  | @stop x y z hready hend hkey =>
      intro fuel hfuel
      obtain ⟨fuel, rfl⟩ : ∃ n, fuel = n + 1 := ⟨fuel - 1, by omega⟩
      exact ⟨z, by rw [run_succ, hready, Option.bind_some, hend]; exact hkey, rfl⟩
  | @step x y z f hready hfetch hreadable hless _ ih =>
      intro fuel hfuel
      obtain ⟨fuel, rfl⟩ : ∃ n, fuel = n + 1 := ⟨fuel - 1, by omega⟩
      have hle := length_ready hready
      obtain ⟨w, hrun, hfound⟩ := ih fuel (by omega)
      refine ⟨w, ?_, hfound⟩
      have hnonempty : y.cursor.rest.isEmpty = false := by
        cases hrest : y.cursor.rest with
        | nil => simp [hrest] at hless
        | cons => rfl
      rw [run_succ, hready, Option.bind_some, hnonempty, hfetch]
      simpa [settle_of_readable hreadable] using hrun

/-- Readers that come to the same place have the same run. -/
theorem Ends.of_ready {x x' : Lexer} {f : List Token} (h : Ends x' f)
    (hready : ready x = ready x') : Ends x f := by
  cases h with
  | stop hnext hend hkey => exact .stop (hready.trans hnext) hend hkey
  | step hnext hfetch hreadable hless hends =>
      exact .step (hready.trans hnext) hfetch hreadable hless hends

/-- A reader outside brackets that has no pending key. -/
def bare (c : Cursor) (found : List Token) (indent : Int) (indents : List Int) (allowKey : Bool) :
    Lexer := ⟨c, found, 0, indent, indents, allowKey, []⟩

def fresh (t : List Char) (index line : Nat) (found : List Token) (indent : Int)
    (indents : List Int) : Lexer := bare ⟨t, index, line, 0⟩ found indent indents true

theorem toNext_goes {x : Lexer} (fuel : Nat) (h : Goes x.cursor.rest) :
    x.toNext (fuel + 1) = x.moveTo x.cursor.skipSpaces := by
  have hrest : x.cursor.skipSpaces.rest = x.cursor.rest.dropWhile (· = ' ') := by
    rw [Cursor.skipSpaces_eq]
  have hpeek : x.cursor.skipSpaces.peek ≠ some '#' := by
    intro hsign
    rw [Cursor.peek, hrest] at hsign
    exact (h '#' hsign).2 rfl
  have hline : x.cursor.skipSpaces.lineEnd? = none :=
    Cursor.lineEnd?_of_not fun ch hch => by
      rw [hrest] at hch
      exact isLineEnd_of_isPrintable (h ch hch).1
  simp only [toNext, if_neg hpeek, hline]

theorem toNext_newline {x : Lexer} {t : List Char} (h : x.cursor.rest = '\n' :: t)
    (ht : Goes t) (hdepth : x.depth = 0) :
    x.toNext (x.cursor.rest.length + 1) =
      { x with cursor := Cursor.skipSpaces ⟨t, x.cursor.index + 1, x.cursor.line + 1, 0⟩,
               allowKey := true } := by
  have hspaces : x.cursor.skipSpaces = x.cursor := Cursor.skipSpaces_of_not (by simp [h])
  have hpeek : x.cursor.peek ≠ some '#' := by simp [Cursor.peek, h]
  have hlength : x.cursor.rest.length = t.length + 1 := by rw [h]; rfl
  rw [hlength, toNext]
  simp only [hspaces, if_neg hpeek, Cursor.lineEnd?_newline h, Cursor.next_newline h,
    show (x.allowKey || x.depth == 0) = true by simp [hdepth]]
  exact toNext_goes (x := { x with
    cursor := ⟨t, x.cursor.index + 1, x.cursor.line + 1, 0⟩, allowKey := true }) t.length ht

/-- Keys of lines before a given one, that need not be any, are dropped. -/
theorem dropStale_passed {x : Lexer}
    (h : ∀ e ∈ x.pending, e.2.required = false ∧ e.2.line < x.cursor.line) :
    x.dropStale = some { x with pending := [] } := by
  have hrequired : (x.pending.any fun e => isStale x.cursor e.2 && e.2.required) = false := by
    rw [List.any_eq_false]
    intro e he
    simp [(h e he).1]
  have hdropped : (x.pending.filter fun e => !isStale x.cursor e.2) = [] := by
    rw [List.filter_eq_nil_iff]
    intro e he
    have hline : e.2.line ≠ x.cursor.line := Nat.ne_of_lt (h e he).2
    simp [isStale, hline]
  simp [dropStale, hrequired, hdropped]

theorem ready_bare {c : Cursor} {found : List Token} {indent : Int} {indents : List Int}
    {allowKey : Bool} (h : Goes c.rest) :
    ready (bare c found indent indents allowKey) =
      some ((bare c.skipSpaces found indent indents allowKey).unwind c.skipSpaces.column) := by
  have hnext : (bare c found indent indents allowKey).toNext (c.rest.length + 1) =
      bare c.skipSpaces found indent indents allowKey := toNext_goes _ h
  unfold ready
  change ((bare c found indent indents allowKey).toNext (c.rest.length + 1)).dropStale.bind _ = _
  rw [hnext, dropStale_passed fun e he => by cases he]
  rfl

/-- At the end of a line pending keys are over. -/
theorem ready_newline {x : Lexer} {t : List Char} (h : x.cursor.rest = '\n' :: t) (ht : Goes t)
    (hdepth : x.depth = 0)
    (hpending : ∀ e ∈ x.pending, e.2.required = false ∧ e.2.line ≤ x.cursor.line) :
    ready x =
      ready (fresh t (x.cursor.index + 1) (x.cursor.line + 1) x.found x.indent x.indents) := by
  obtain ⟨c, found, depth, indent, indents, allowKey, pending⟩ := x
  simp only at hdepth
  subst hdepth
  rw [fresh, ready_bare ht, ready, toNext_newline h ht rfl, dropStale_passed]
  · rfl
  · intro e he
    obtain ⟨hrequired, hline⟩ := hpending e he
    refine ⟨hrequired, ?_⟩
    rw [Cursor.skipSpaces_eq]
    exact Nat.lt_succ_of_le hline

/-- Spaces at the start of a line have been passed already. -/
theorem ready_skipped {x : Lexer} {t : List Char} {index line : Nat}
    (h : x.cursor = Cursor.skipSpaces ⟨t, index, line, 0⟩) (ht : Goes t) (hdepth : x.depth = 0)
    (hallow : x.allowKey = true)
    (hpending : ∀ e ∈ x.pending, e.2.required = false ∧ e.2.line < line) :
    ready x = ready (fresh t index line x.found x.indent x.indents) := by
  obtain ⟨c, found, depth, indent, indents, allowKey, pending⟩ := x
  simp only at hdepth hallow h
  subst hdepth hallow h
  have hgoes : Goes (Cursor.skipSpaces ⟨t, index, line, 0⟩).rest := by
    rw [Cursor.skipSpaces_eq]
    exact goes_dropWhile ht
  have hnext : toNext ((Cursor.skipSpaces ⟨t, index, line, 0⟩).rest.length + 1)
      ⟨Cursor.skipSpaces ⟨t, index, line, 0⟩, found, 0, indent, indents, true, pending⟩ =
      ⟨Cursor.skipSpaces ⟨t, index, line, 0⟩, found, 0, indent, indents, true, pending⟩ := by
    rw [toNext_goes _ hgoes, moveTo, Cursor.skipSpaces_skipSpaces]
  rw [fresh, ready_bare ht, ready]
  simp only [hnext]
  rw [dropStale_passed fun e he => ?_]
  · rfl
  · rw [Cursor.skipSpaces_eq]
    exact hpending e he

theorem unwind_inner {x : Lexer} {column : Int} (h : x.indent ≤ column) : x.unwind column = x := by
  have hnone : unwindFrom column x.indent x.indents x.found = (x.indent, x.indents, x.found) := by
    cases x.indents with
    | nil => rfl
    | cons outer indents => rw [unwindFrom, if_neg (by omega)]
  unfold unwind
  split
  · rfl
  · simp only [hnone]

/-- A reader that stands at a token already, with keys that may still be some. -/
theorem ready_here {x : Lexer} {ch : Char} {t : List Char} (h : x.cursor.rest = ch :: t)
    (hch : isPrintable ch = true) (hspace : ch ≠ ' ') (hsign : ch ≠ '#')
    (hkept : ∀ e ∈ x.pending, isStale x.cursor e.2 = false)
    (hindent : 0 < x.depth ∨ x.indent ≤ x.cursor.column) : ready x = some x := by
  have hskip : x.cursor.skipSpaces = x.cursor :=
    Cursor.skipSpaces_of_not (by simpa [h] using hspace)
  have hnext : x.toNext (x.cursor.rest.length + 1) = x := by
    rw [toNext_goes _ (by rw [h]; exact goes_char hch hspace hsign), hskip]
    rfl
  have hstale : x.dropStale = some x := by
    have hrequired : (x.pending.any fun e => isStale x.cursor e.2 && e.2.required) = false := by
      rw [List.any_eq_false]
      intro e he
      simp [hkept e he]
    have hall : (x.pending.filter fun e => !isStale x.cursor e.2) = x.pending := by
      rw [List.filter_eq_self]
      intro e he
      simp [hkept e he]
    simp [dropStale, hrequired, hall]
  have hunwind : x.unwind x.cursor.column = x := by
    rcases hindent with hdepth | hindent
    · simp [unwind, hdepth]
    · exact unwind_inner hindent
  simp [ready, hnext, hstale, hunwind]

theorem ready_bare_here {c : Cursor} {found : List Token} {indent : Int} {indents : List Int}
    {allowKey : Bool} {ch : Char} {t : List Char} (h : c.rest = ch :: t)
    (hch : isPrintable ch = true) (hspace : ch ≠ ' ') (hsign : ch ≠ '#')
    (hindent : indent ≤ c.column) :
    ready (bare c found indent indents allowKey) = some (bare c found indent indents allowKey) :=
  ready_here h hch hspace hsign (fun e he => by cases he) (Or.inr hindent)

def keyAt (c : Cursor) (found : List Token) (indent : Int) : PendingKey :=
  ⟨found.length, indent == c.column, c.index, c.line, c.column⟩

theorem saveKey_bare (c : Cursor) (found : List Token) (indent : Int) (indents : List Int)
    (allowKey : Bool) :
    (bare c found indent indents allowKey).saveKey =
      some { bare c found indent indents allowKey with
        pending := if allowKey then [(0, keyAt c found indent)] else [] } := by
  cases allowKey <;> rfl

namespace Ends

variable {c : Cursor} {found found' f : List Token} {indent : Int} {indents indents' : List Int}
  {allowKey : Bool} {t : List Char}

/-- Spaces do not matter. -/
theorem spaces (n : Nat) (h : c.rest = List.replicate n ' ' ++ t) (ht : Goes t)
    (hends : Ends (bare (c.forward n) found indent indents allowKey) f) :
    Ends (bare c found indent indents allowKey) f := by
  have hplace := Cursor.forward_printable h fun d hd => by
    rw [List.eq_of_mem_replicate hd]
    decide
  rw [List.length_replicate] at hplace
  have hskip : (c.forward n).skipSpaces = c.skipSpaces := by
    rw [hplace, Cursor.skipSpaces_eq, Cursor.skipSpaces_eq c, h]
    simp [List.dropWhile_append_of_pos, List.takeWhile_append_of_pos]
    omega
  apply hends.of_ready
  rw [ready_bare (by rw [h]; exact goes_spaces n ht), ready_bare (by rw [hplace]; exact ht), hskip]

/-- A block ends where a line is less indented. -/
theorem outdent {index line m : Nat} {k : Int} (ht : Goes t)
    (hless : (t.takeWhile (· = ' ')).length < m)
    (hends : Ends (fresh t index line (.blockEnd :: found) k indents) f) :
    Ends (fresh t index line found m (k :: indents)) f := by
  apply hends.of_ready
  rw [fresh, fresh, ready_bare ht, ready_bare ht]
  have hcolumn : (Cursor.skipSpaces ⟨t, index, line, 0⟩).column =
      (t.takeWhile (· = ' ')).length := by
    rw [Cursor.skipSpaces_eq]
    exact Nat.zero_add _
  have hover : (m : Int) > ((Cursor.skipSpaces ⟨t, index, line, 0⟩).column : Int) := by omega
  unfold unwind
  simp only [bare, Nat.lt_irrefl, if_false, gt_iff_lt, unwindFrom, if_pos hover]

end Ends

/-- The block at a column is open: it is the innermost one already, or it begins there with its
start token. -/
inductive Opens (start : Token) (column : Nat) :
    List Token → Int → List Int → List Token → List Int → Prop where
  | inner (found : List Token) (indents : List Int) :
      Opens start column found column indents found indents
  | outer {indent : Int} (found : List Token) (indents : List Int) (h : indent < column) :
      Opens start column found indent indents (start :: found) (indent :: indents)

theorem Opens.le {start : Token} {column : Nat} {found found' : List Token} {indent : Int}
    {indents indents' : List Int} (h : Opens start column found indent indents found' indents') :
    indent ≤ column := by
  cases h with
  | inner => exact Int.le_refl _
  | outer _ _ h => exact Int.le_of_lt h

theorem Opens.openHere {start : Token} {c : Cursor} {found found' : List Token} {indent : Int}
    {indents indents' : List Int} (allowKey : Bool)
    (h : Opens start c.column found indent indents found' indents') :
    (bare c found indent indents allowKey).openHere start =
      bare c found' c.column indents' allowKey := by
  generalize hcolumn : c.column = column at h
  cases h with
  | inner => simp [Lexer.openHere, bare, openBlock, hcolumn]
  | outer _ _ h => simp [Lexer.openHere, bare, openBlock, hcolumn, h, push]

end Lexer

end FunctionPipeline.Yaml

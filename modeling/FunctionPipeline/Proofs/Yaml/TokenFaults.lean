import FunctionPipeline.Yaml.Token
import FunctionPipeline.Proofs.Yaml.ScalarFaults

/-!
What the tokens of a text break off with. Only an escape that stands for no character and a version
with too many digits do; every step of the reader keeps to that.
-/

namespace FunctionPipeline.Yaml

/-- Tokens that break off with nothing but faults of scalars. -/
def KnownCauses (found : List Token) : Prop :=
  ∀ cause, .unreadable cause ∈ found → cause.OfScalar

@[simp] theorem knownCauses_nil : KnownCauses [] := by
  intro cause h
  cases h

@[simp] theorem knownCauses_cons {t : Token} {found : List Token} :
    KnownCauses (t :: found) ↔
      (∀ cause, t = .unreadable cause → cause.OfScalar) ∧ KnownCauses found := by
  constructor
  · intro h
    constructor
    · intro cause ht
      exact h cause (by simp [ht])
    · intro cause hcause
      exact h cause (by simp [hcause])
  · rintro ⟨ht, hfound⟩ cause hcause
    rcases List.mem_cons.mp hcause with heq | hmem
    · exact ht cause heq.symm
    · exact hfound cause hmem

@[simp] theorem knownCauses_append {found others : List Token} :
    KnownCauses (found ++ others) ↔ KnownCauses found ∧ KnownCauses others := by
  induction found with
  | nil => simp
  | cons t found ih => simp only [List.cons_append, knownCauses_cons, ih, and_assoc]

theorem KnownCauses.subset {found others : List Token} (h : KnownCauses others)
    (hsub : found ⊆ others) : KnownCauses found := by
  intro cause hcause
  exact h cause (hsub hcause)

namespace Lexer

theorem knownCauses_insertBelow {n : Nat} {tokens found : List Token} (htokens : KnownCauses tokens)
    (hfound : KnownCauses found) : KnownCauses (insertBelow n tokens found) := by
  unfold insertBelow
  rw [knownCauses_append, knownCauses_append]
  exact ⟨⟨hfound.subset (List.take_subset n found), htokens⟩,
    hfound.subset (List.drop_subset n found)⟩

theorem scalarFaults_versionNumber (c : Cursor) : ScalarFaults (versionNumber c) := by
  unfold versionNumber
  simp only
  split
  · exact Yields.malformed
  · split
    · exact Yields.fault_iff.mpr (.tooManyDigits _)
    · exact Yields.ok_iff.mpr trivial

theorem scalarFaults_version (c : Cursor) : ScalarFaults (version c) := by
  unfold version
  apply (scalarFaults_versionNumber _).bind
  rintro ⟨major, c⟩ -
  simp only
  split
  · exact Yields.malformed
  · apply (scalarFaults_versionNumber _).bind
    rintro ⟨minor, c⟩ -
    simp only
    split
    · exact Yields.pure_iff.mpr trivial
    · exact Yields.malformed

theorem scalarFaults_directiveToken (c : Cursor) : ScalarFaults (directiveToken c) := by
  have hline (d : Directive) (c : Cursor) :
      ScalarFaults (do return (d, ← required (Block.restOfLine c))) :=
    (scalarFaults_required _).bind fun _ _ => Yields.pure_iff.mpr trivial
  unfold directiveToken
  simp only
  split
  · exact Yields.malformed
  · split
    · exact (scalarFaults_version _).bind fun found _ => hline found.1 found.2
    · split
      · exact (scalarFaults_required _).bind fun found _ => hline found.1 found.2
      · exact (scalarFaults_required _).bind fun _ _ => Yields.pure_iff.mpr trivial

/-! Steps that find no token. -/

theorem found_toNext (fuel : Nat) (x : Lexer) : (x.toNext fuel).found = x.found := by
  induction fuel generalizing x with
  | zero => rfl
  | succ fuel ih =>
      unfold toNext
      simp only
      split
      · exact ih _
      · rfl

theorem found_dropStale {x y : Lexer} (h : x.dropStale = some y) : y.found = x.found := by
  unfold dropStale at h
  split at h
  · cases h
  · cases h
    rfl

theorem found_dropKey {x y : Lexer} (h : x.dropKey = some y) : y.found = x.found := by
  unfold dropKey at h
  split at h
  · cases h
  · cases h
    rfl

theorem found_saveKey {x y : Lexer} (h : x.saveKey = some y) : y.found = x.found := by
  unfold saveKey at h
  split at h
  · obtain ⟨z, hz, hy⟩ := Option.bind_eq_some_iff.mp h
    have hfound := found_dropKey hz
    cases hy
    exact hfound
  · cases h
    rfl

/-! Steps that find some. -/

variable {x y : Lexer}

theorem knownCauses_unwindFrom (column indent : Int) (indents : List Int) {found : List Token}
    (h : KnownCauses found) : KnownCauses (unwindFrom column indent indents found).2.2 := by
  induction indents generalizing indent found with
  | nil => exact h
  | cons outer indents ih =>
      unfold unwindFrom
      split
      · exact ih outer (by simpa using h)
      · exact h

theorem knownCauses_unwind (column : Int) (h : KnownCauses x.found) :
    KnownCauses (x.unwind column).found := by
  unfold unwind
  split
  · exact h
  · exact knownCauses_unwindFrom column x.indent x.indents h

theorem knownCauses_openHere {start : Token} (hstart : KnownCauses [start])
    (h : KnownCauses x.found) : KnownCauses (x.openHere start).found := by
  unfold openHere openBlock
  split
  · exact h
  · split
    next z hz =>
      split at hz
      · cases hz
        simpa [push, h] using hstart
      · cases hz
    next => exact h

theorem knownCauses_openBracket {t : Token} (ht : KnownCauses [t]) (h : KnownCauses x.found)
    (hy : x.openBracket t = some y) : KnownCauses y.found := by
  obtain ⟨z, hz, hend⟩ := Option.bind_eq_some_iff.mp hy
  cases hend
  simpa [push, found_saveKey hz, h] using ht

theorem knownCauses_closeBracket {t : Token} (ht : KnownCauses [t]) (h : KnownCauses x.found)
    (hy : x.closeBracket t = some y) : KnownCauses y.found := by
  obtain ⟨z, hz, hend⟩ := Option.bind_eq_some_iff.mp hy
  simp only at hend
  split at hend
  · cases hend
  · cases hend
    simpa [single, push, found_dropKey hz, h] using ht

/-- One character that is a token, and no key before which it could stand. -/
theorem knownCauses_indicator {t : Token} {allowKey : Bool} (ht : KnownCauses [t])
    (h : KnownCauses x.found)
    (hy : (do
      let z ← { x with allowKey }.dropKey
      return (z.moveTo z.cursor.next).push t) = some y) :
    KnownCauses y.found := by
  obtain ⟨z, hz, hend⟩ := Option.bind_eq_some_iff.mp hy
  cases hend
  simpa [push, moveTo, found_dropKey hz, h] using ht

theorem knownCauses_comma (h : KnownCauses x.found) (hy : x.comma = some y) :
    KnownCauses y.found := knownCauses_indicator (by simp) h hy

theorem knownCauses_dash (h : KnownCauses x.found) (hy : x.dash = some y) :
    KnownCauses y.found := by
  have hopened : KnownCauses (x.openHere .blockSequenceStart).found :=
    knownCauses_openHere (by simp) h
  unfold dash at hy
  simp only at hy
  split at hy
  · cases hy
  · exact knownCauses_indicator (by simp) hopened hy

theorem knownCauses_question (h : KnownCauses x.found) (hy : x.question = some y) :
    KnownCauses y.found := by
  have hopened : KnownCauses (x.openHere .blockMappingStart).found :=
    knownCauses_openHere (by simp) h
  unfold question at hy
  simp only at hy
  split at hy
  · cases hy
  · exact knownCauses_indicator (by simp) hopened hy

theorem knownCauses_colon (h : KnownCauses x.found) (hy : x.colon = some y) :
    KnownCauses y.found := by
  have hopened : KnownCauses (x.openHere .blockMappingStart).found :=
    knownCauses_openHere (by simp) h
  unfold colon at hy
  split at hy
  next key _ =>
    cases hy
    simp only [single, push, knownCauses_cons]
    refine ⟨by simp, ?_⟩
    split
    next z hz =>
      have hfound : z.found = x.found := by
        unfold openBlock at hz
        split at hz
        · split at hz
          · cases hz
            rfl
          · cases hz
        · cases hz
      rw [hfound]
      exact knownCauses_insertBelow (by simp) h
    next => exact knownCauses_insertBelow (by simp) h
  next =>
    simp only at hy
    split at hy
    · cases hy
    · exact knownCauses_indicator (by simp) hopened hy

theorem knownCauses_edge (h : KnownCauses x.found) (hy : x.edge = some y) :
    KnownCauses y.found := by
  obtain ⟨z, hz, hend⟩ := Option.bind_eq_some_iff.mp hy
  cases hend
  rw [found_dropKey hz]
  exact knownCauses_unwind (-1) h

theorem knownCauses_brokenOff {cause : Fault} (hcause : cause.OfScalar)
    (h : KnownCauses x.found) : KnownCauses (x.brokenOff cause).found := by
  simp only [brokenOff, push, knownCauses_cons]
  refine ⟨?_, h⟩
  intro other hother
  cases hother
  exact hcause

theorem knownCauses_scalar (plain : Bool) (text : List Char) (c : Cursor)
    (h : KnownCauses x.found) : KnownCauses (x.scalar plain text c).found := by
  simpa [scalar, push, moveTo] using h

theorem knownCauses_quoted {double : Bool} (h : KnownCauses x.found)
    (hy : x.quoted double = some y) : KnownCauses y.found := by
  obtain ⟨z, hz, hend⟩ := Option.bind_eq_some_iff.mp hy
  have hfound : KnownCauses z.found := by
    rw [found_saveKey hz]
    exact h
  simp only at hend
  split at hend
  · have hread : ScalarFaults (DoubleQuoted.read z.cursor) := DoubleQuoted.scalarFaults_readFrom _ _
    split at hend
    next =>
      cases hend
      exact knownCauses_scalar _ _ _ hfound
    next => cases hend
    next cause hcause =>
      cases hend
      exact knownCauses_brokenOff (hread.fault cause hcause) hfound
  · obtain ⟨read, -, hread⟩ := Option.bind_eq_some_iff.mp hend
    cases hread
    exact knownCauses_scalar _ _ _ hfound

theorem knownCauses_block {folded : Bool} (h : KnownCauses x.found)
    (hy : x.block folded = some y) : KnownCauses y.found := by
  obtain ⟨z, hz, hend⟩ := Option.bind_eq_some_iff.mp hy
  obtain ⟨read, -, hread⟩ := Option.bind_eq_some_iff.mp hend
  cases hread
  apply knownCauses_scalar
  rw [found_dropKey hz]
  exact h

theorem knownCauses_plainScalar (h : KnownCauses x.found) (hy : x.plainScalar = some y) :
    KnownCauses y.found := by
  obtain ⟨z, hz, hend⟩ := Option.bind_eq_some_iff.mp hy
  cases hend
  apply knownCauses_scalar
  simpa [found_saveKey hz] using h

theorem knownCauses_named {token : List Char → Token} (htoken : ∀ name, KnownCauses [token name])
    (h : KnownCauses x.found) (hy : x.named token = some y) : KnownCauses y.found := by
  obtain ⟨z, hz, hend⟩ := Option.bind_eq_some_iff.mp hy
  obtain ⟨read, -, hread⟩ := Option.bind_eq_some_iff.mp hend
  cases hread
  simpa [push, found_saveKey hz, h] using htoken read.1

theorem knownCauses_tagToken {c after : Cursor} {t : Token} (h : tagToken c = some (t, after)) :
    KnownCauses [t] := by
  have htag (handle : Option (List Char)) (suffix : List Char) (c : Cursor)
      (h : (if spaceOrEnd c then pure (Token.tag handle suffix, c) else none) = some (t, after)) :
      KnownCauses [t] := by
    split at h
    · cases h
      simp
    · cases h
  unfold tagToken at h
  simp only at h
  split at h
  · obtain ⟨found, -, hrest⟩ := Option.bind_eq_some_iff.mp h
    split at hrest
    · cases hrest
    · exact htag _ _ _ hrest
  · split at h
    · exact htag _ _ _ h
    · split at h
      · obtain ⟨handle, -, hname⟩ := Option.bind_eq_some_iff.mp h
        obtain ⟨found, -, hrest⟩ := Option.bind_eq_some_iff.mp hname
        exact htag _ _ _ hrest
      · obtain ⟨found, -, hrest⟩ := Option.bind_eq_some_iff.mp h
        exact htag _ _ _ hrest

private theorem taken_of_ite {c : Prop} [Decidable c] {taken other : Option Lexer}
    (h : (if c then taken else other) = some y) : taken = some y ∨ other = some y := by
  split at h
  · exact Or.inl h
  · exact Or.inr h

/-- Whichever token a step finds, none but faults of scalars break the tokens off. -/
theorem knownCauses_fetch (h : KnownCauses x.found) (hy : x.fetch = some y) :
    KnownCauses y.found := by
  unfold fetch at hy
  extract_lets c next inBrackets at hy
  split at hy
  · cases hy
  -- The branches in the order of the reader's tests; what the tests say makes no difference here.
  rcases taken_of_ite hy with hy | hy
  · obtain ⟨z, hz, hend⟩ := Option.bind_eq_some_iff.mp hy
    have hedge := knownCauses_edge h hz
    have hread := scalarFaults_directiveToken z.cursor
    split at hend
    next =>
      cases hend
      simpa [push, moveTo] using hedge
    next => cases hend
    next cause hcause =>
      cases hend
      exact knownCauses_brokenOff (hread.fault cause hcause) hedge
  rcases taken_of_ite hy with hy | hy
  · obtain ⟨z, hz, hend⟩ := Option.bind_eq_some_iff.mp hy
    have hedge := knownCauses_edge h hz
    cases hend
    simp only [push, moveTo, knownCauses_cons]
    refine ⟨?_, hedge⟩
    intro cause hcause
    split at hcause <;> cases hcause
  rcases taken_of_ite hy with hy | hy
  · exact knownCauses_openBracket (by simp) h hy
  rcases taken_of_ite hy with hy | hy
  · exact knownCauses_openBracket (by simp) h hy
  rcases taken_of_ite hy with hy | hy
  · exact knownCauses_closeBracket (by simp) h hy
  rcases taken_of_ite hy with hy | hy
  · exact knownCauses_closeBracket (by simp) h hy
  rcases taken_of_ite hy with hy | hy
  · exact knownCauses_comma h hy
  rcases taken_of_ite hy with hy | hy
  · exact knownCauses_dash h hy
  rcases taken_of_ite hy with hy | hy
  · exact knownCauses_question h hy
  rcases taken_of_ite hy with hy | hy
  · exact knownCauses_colon h hy
  rcases taken_of_ite hy with hy | hy
  · exact knownCauses_named (by simp) h hy
  rcases taken_of_ite hy with hy | hy
  · exact knownCauses_named (by simp) h hy
  rcases taken_of_ite hy with hy | hy
  · obtain ⟨z, hz, hend⟩ := Option.bind_eq_some_iff.mp hy
    obtain ⟨⟨t, after⟩, ht, hread⟩ := Option.bind_eq_some_iff.mp hend
    cases hread
    simpa [push, found_saveKey hz, h] using knownCauses_tagToken ht
  rcases taken_of_ite hy with hy | hy
  · exact knownCauses_block h hy
  rcases taken_of_ite hy with hy | hy
  · exact knownCauses_block h hy
  rcases taken_of_ite hy with hy | hy
  · exact knownCauses_quoted h hy
  rcases taken_of_ite hy with hy | hy
  · exact knownCauses_quoted h hy
  rcases taken_of_ite hy with hy | hy
  · exact knownCauses_plainScalar h hy
  · cases hy

theorem knownCauses_settle (count : Nat) (h : KnownCauses x.found) :
    KnownCauses (x.settle count).found := by
  unfold settle
  split
  next cause found hfound =>
    rw [hfound] at h
    apply h.subset
    intro t ht
    rcases List.mem_cons.mp ht with rfl | hmem
    · simp
    · exact List.mem_cons_of_mem _ (List.drop_subset _ _ hmem)
  next => exact h

theorem knownCauses_run {fuel : Nat} (h : KnownCauses x.found) (hy : x.run fuel = some y) :
    KnownCauses y.found := by
  induction fuel generalizing x with
  | zero => cases hy
  | succ fuel ih =>
      obtain ⟨z, hz, hend⟩ := Option.bind_eq_some_iff.mp hy
      have hfound : KnownCauses z.found := by
        rw [found_dropStale hz, found_toNext]
        exact h
      have hready := knownCauses_unwind z.cursor.column hfound
      simp only at hend
      split at hend
      · rw [found_dropKey hend]
        exact knownCauses_unwind (-1) hready
      · obtain ⟨fetched, hfetched, hrest⟩ := Option.bind_eq_some_iff.mp hend
        exact ih (knownCauses_settle _ (knownCauses_fetch hready hfetched)) hrest

end Lexer

/-- The tokens of a text break off with nothing but faults of scalars. -/
theorem knownCauses_tokens? {s : List Char} {ts : List Token} (h : tokens? s = some ts) :
    KnownCauses ts := by
  unfold tokens? at h
  simp only at h
  split at h
  · cases h
  · obtain ⟨x, hx, hts⟩ := Option.bind_eq_some_iff.mp h
    cases hts
    have hfound : KnownCauses x.found := by
      apply Lexer.knownCauses_run _ hx
      split
      · exact knownCauses_nil
      · exact knownCauses_nil
    exact hfound.subset fun t ht => List.mem_reverse.mp ht

end FunctionPipeline.Yaml

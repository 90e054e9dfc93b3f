import FunctionPipeline.Proofs.Document.Identity
import FunctionPipeline.Proofs.Manifest.Documents

/-!
Manifests that can be come by: read from a closed document, put together from checked parts, or
another one with one more step. All of them are sound, so each is read back from its document, and
a document that was read and written once is in its normal form.
-/

namespace FunctionPipeline

namespace FunctionInput

/-- An input made of an artifact and other parts has the version and kind it is given. -/
theorem isClosed_of_ofParts {artifact : Artifact} {values sourceType apiVersion kind : Value}
    {input : FunctionInput} (hversion : apiVersion.IsClosed) (hkind : kind.IsClosed)
    (h : ofParts artifact values sourceType apiVersion kind = .ok input) : input.IsClosed := by
  obtain ⟨-, _, -, rfl⟩ := of_ofParts h
  exact ⟨hversion, hkind⟩

/-- What is read from a closed document is closed. -/
theorem isClosed_of_ofValue {document : Value} {input : FunctionInput}
    (hclosed : document.IsClosed) (h : ofValue document = .ok input) : input.IsClosed := by
  obtain ⟨entries, _, _, hentries, -, -, hinput⟩ := parts_of_ofValue h
  have hes := hclosed.entries? hentries
  exact isClosed_of_ofParts (hes.getD _ (by simp)) (hes.getD _ (by simp)) hinput

inductive IsObtained : FunctionInput → Prop
  | read {document : Value} {input : FunctionInput} (hclosed : document.IsClosed)
      (h : ofValue document = .ok input) : IsObtained input
  | made {artifact : Artifact} {values sourceType apiVersion kind : Value} {input : FunctionInput}
      (hversion : apiVersion.IsClosed) (hkind : kind.IsClosed)
      (h : ofParts artifact values sourceType apiVersion kind = .ok input) : IsObtained input

theorem IsObtained.isClosed {input : FunctionInput} (h : input.IsObtained) : input.IsClosed := by
  cases h with
  | read hclosed h => exact isClosed_of_ofValue hclosed h
  | made hversion hkind h => exact isClosed_of_ofParts hversion hkind h

end FunctionInput

namespace Step

/-- What is read from a closed document is sound. -/
theorem isSound_of_ofValue {document : Value} {s : Step} (hclosed : document.IsClosed)
    (h : ofValue document = .ok s) : s.IsSound := by
  obtain ⟨_, part, _, hparts, hread, hmade⟩ := parts_of_ofValue h
  obtain ⟨-, hpart, -⟩ := of_partsOf hparts
  have hinput := FunctionInput.isClosed_of_ofValue (hclosed.subscript hpart) hread
  exact isSound_of_ofParts hinput hmade

inductive IsObtained : Step → Prop
  | read {document : Value} {s : Step} (hclosed : document.IsClosed)
      (h : ofValue document = .ok s) : IsObtained s
  | made {name function : Value} {input : FunctionInput} {s : Step} (hinput : input.IsObtained)
      (h : ofParts name function input = .ok s) : IsObtained s

theorem IsObtained.isSound {s : Step} (h : s.IsObtained) : s.IsSound := by
  cases h with
  | read hclosed h => exact isSound_of_ofValue hclosed h
  | made hinput h => exact isSound_of_ofParts hinput.isClosed h

end Step

/-- Nothing but the entries of a closed value is looked up in it. -/
theorem Value.IsClosed.entries {v : Value} (h : v.IsClosed) :
    Entries.IsClosed ((v.entries?).getD []) := by
  cases hes : v.entries? with
  | none => exact Entries.isClosed_nil
  | some es => exact h.entries? hes

namespace Manifest

/-- The documents of the steps in a closed specification are closed. -/
private theorem isClosed_stepsIn {spec : Entries} {documents : List Value}
    (hspec : Entries.IsClosed spec) (h : stepsIn spec = .ok documents) :
    ∀ document ∈ documents, document.IsClosed := by
  have hpipeline : (Entries.orElse spec "pipeline" (.list [])).IsClosed :=
    hspec.orElse "pipeline" rfl
  exact hpipeline.items? (items?_of_stepsIn h)

/-- What is read from a closed document is sound. -/
theorem isSound_of_ofValue {document : Value} {m : Manifest} (hclosed : document.IsClosed)
    (h : ofValue document = .ok m) : m.IsSound := by
  obtain ⟨spec, documents, hparts, hdocuments, hsteps, hversion, hkind, hchecked⟩ :=
    parts_of_ofValue h
  obtain ⟨hspec, ⟨_, hmetadata, hname⟩, _, htype, htypeVersion, htypeKind⟩ := of_partsOf hparts
  have hentries := hclosed.entries
  have hspecClosed := hclosed.subscript hspec
  have htypeClosed := hspecClosed.subscript htype
  refine ⟨(hclosed.subscript hmetadata).subscript hname, htypeClosed.subscript htypeVersion,
    htypeClosed.subscript htypeKind, ?_, ?_, ?_, hchecked⟩
  · rw [hversion]
    exact hentries.getD "apiVersion" (by simp)
  · rw [hkind]
    exact hentries.getD "kind" (by simp)
  · intro s hs
    obtain ⟨part, hpart, hread⟩ := exists_of_mapM_ok hsteps s hs
    exact Step.isSound_of_ofValue
      (isClosed_stepsIn hspecClosed.entries hdocuments part hpart) hread

/-- A manifest that was read from a document, made of parts that passed the checks, or extended by
any number of steps. -/
inductive IsObtained : Manifest → Prop
  | read {document : Value} {m : Manifest} (hclosed : document.IsClosed)
      (h : ofValue document = .ok m) : IsObtained m
  | made {m : Manifest} (hname : m.name.IsClosed)
      (htype : m.compositeApiVersion.IsClosed ∧ m.compositeKind.IsClosed)
      (hkind : m.apiVersion.IsClosed ∧ m.kind.IsClosed) (hsteps : ∀ s ∈ m.steps, s.IsObtained)
      (h : m.checked = .ok m) : IsObtained m
  | extended {m n : Manifest} {step : Step} (hm : m.IsObtained) (hstep : step.IsObtained)
      (h : m.withStep step = .ok n) : IsObtained n

/-- One more step that was obtained itself leaves a manifest sound. -/
theorem IsSound.withStep {m n : Manifest} {step : Step} (hm : m.IsSound) (hstep : step.IsSound)
    (h : m.withStep step = .ok n) : n.IsSound := by
  obtain rfl := eq_of_checked h
  refine ⟨hm.name, hm.compositeApiVersion, hm.compositeKind, hm.apiVersion, hm.kind, ?_, h⟩
  intro s hs
  rcases List.mem_append.mp hs with hmem | hmem
  · exact hm.steps s hmem
  · obtain rfl := List.mem_singleton.mp hmem
    exact hstep

theorem IsObtained.isSound {m : Manifest} (h : m.IsObtained) : m.IsSound := by
  induction h with
  | read hclosed h => exact isSound_of_ofValue hclosed h
  | made hname htype hkind hsteps h =>
      exact ⟨hname, htype.1, htype.2, hkind.1, hkind.2, fun s hs => (hsteps s hs).isSound, h⟩
  | extended _ hstep h ih => exact ih.withStep hstep.isSound h

/-- Every manifest that can be come by is read back from its document; so what an accepted document
says once it has been read and written is read and written again as it is. -/
theorem document_round_trip :
    (∀ m : Manifest, m.IsObtained → ofValue m.toValue = .ok m) ∧
      ∀ (document : Value) (m : Manifest), document.IsClosed → ofValue document = .ok m →
        (ofValue m.toValue).map toValue = .ok m.toValue := by
  constructor
  · intro m h
    exact ofValue_toValue h.isSound
  · intro document m hclosed h
    rw [ofValue_toValue (isSound_of_ofValue hclosed h)]
    rfl

/-- A document with nulls in place of what may be left out, and a source type that is spelled
out. -/
def sparseDocument : Value :=
  .object [(.str "spec", .object
      [(.str "compositeTypeRef", .object [(.str "kind", .null), (.str "apiVersion", .int 1)]),
        (.str "pipeline", .list [.object
          [(.str "step", .str "first"), (.str "functionRef", .object [(.str "name", .str "f")]),
            (.str "input", .object
              [(.str "metadata", .null), (.str "apiVersion", .null),
                (.str "spec", .object
                  [(.str "source", .object [(.str "type", .str "Inline")]),
                    (.str "values", .null)])])]])]),
    (.str "metadata", .object [(.str "name", .list [.enclosing 1])])]

def sparseStep : Step :=
  ⟨"first", "f", ⟨⟨"", false, []⟩, [], .null, .str FunctionInput.usualKind⟩⟩

def sparse : Manifest :=
  ⟨.list [.enclosing 1], .int 1, .null, [sparseStep], .str usualApiVersion, .str usualKind⟩

theorem document_round_trip_sparse :
    sparseDocument.IsClosed ∧ ofValue sparseDocument = .ok sparse ∧
      (ofValue sparse.toValue).map toValue = .ok sparse.toValue ∧
      ∃ n, sparse.withStep { sparseStep with name := "second" } = .ok n ∧
        ofValue n.toValue = .ok n := by
  have hclosed : sparseDocument.IsClosed := by decide
  have hread : ofValue sparseDocument = .ok sparse := ok_of_toOption (by decide +kernel)
  have hobtained : sparse.IsObtained := .read hclosed hread
  have hinput : sparseStep.input.IsObtained :=
    .made Value.isClosed_null (Value.isClosed_str _) (FunctionInput.ofParts_self sparseStep.input)
  have hmade : Step.ofParts (.str "second") (.str "f") sparseStep.input =
      .ok { sparseStep with name := "second" } := by rfl
  have hextended : sparse.withStep { sparseStep with name := "second" } =
      .ok { sparse with steps := [sparseStep, { sparseStep with name := "second" }] } := by
    have hnames : repeated ["first", "second"] = [] := by simp [repeated]
    simp only [Manifest.withStep, checked, sparse, sparseStep, List.cons_append, List.nil_append,
      List.map_cons, List.map_nil, hnames]
  refine ⟨hclosed, hread, document_round_trip.2 _ _ hclosed hread, _, hextended, ?_⟩
  exact document_round_trip.1 _ (.extended hobtained (.made hinput hmade) hextended)

end Manifest

end FunctionPipeline

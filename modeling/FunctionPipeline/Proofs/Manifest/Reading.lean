import FunctionPipeline.Proofs.Manifest.Refusals
import FunctionPipeline.Proofs.Manifest.StepNames

/-!
What is read from any value at all. Either the value is refused by a rule, or an integer with too
many digits would be told, or there is a manifest whose steps say what the documents of the pipeline
say, in their order: texts are texts there, flags are flags, and the names differ, also after more
steps were asked for.
-/

namespace FunctionPipeline

/-- The results of a list stem from its values in order. -/
theorem forall₂_of_mapM_ok {ε α β : Type} {f : α → Except ε β} {xs : List α} {ys : List β}
    (h : xs.mapM f = .ok ys) : List.Forall₂ (fun x y => f x = .ok y) xs ys := by
  induction xs generalizing ys with
  | nil =>
      cases h
      exact .nil
  | cons x xs ih =>
      rw [List.mapM_cons] at h
      obtain ⟨first, hfirst, hrest⟩ := ok_of_bind h
      obtain ⟨others, hothers, hend⟩ := ok_of_bind hrest
      cases hend
      exact .cons hfirst (ih hothers)

theorem TextMap.exists_of_ofValue {what : String} {v : Value} {m : TextMap} (hnull : v ≠ .null)
    (h : ofValue what v = .ok m) : ∃ access, v = .mapping access m.toEntries := by
  cases v with
  | null => exact absurd rfl hnull
  | mapping access es => exact ⟨access, by rw [eq_toEntries_of_ofEntries h]⟩
  | _ => cases h

theorem Entries.orElse_ne_null {es : Entries} {name : String} {other : Value}
    (hother : other ≠ .null) : Entries.orElse es name other ≠ .null := by
  unfold Entries.orElse
  split
  next v _ =>
    split
    next htrue =>
      rintro rfl
      cases htrue
    next => exact hother
  next => exact hother

theorem Artifact.of_ofParts {source transpile annotations : Value} {artifact : Artifact}
    (h : ofParts source transpile annotations = .ok artifact) :
    source = .str artifact.source ∧ transpile = .bool artifact.transpile ∧
      TextMap.ofValue "annotations" annotations = .ok artifact.annotations := by
  unfold ofParts at h
  split at h
  next =>
    split at h
    next =>
      obtain ⟨found, hfound, hend⟩ := ok_of_bind h
      cases hend
      exact ⟨rfl, rfl, hfound⟩
    next => cases h
  next => cases h

namespace FunctionInput

theorem annotationsIn_eq (metadata : Value) : annotationsIn metadata =
    Entries.orElse ((metadata.entries?).getD []) "annotations" (.object []) := by
  unfold annotationsIn Value.part? Entries.orElse
  cases metadata.entries? <;> rfl

theorem annotationsIn_ne_null (metadata : Value) : annotationsIn metadata ≠ .null := by
  rw [annotationsIn_eq]
  exact Entries.orElse_ne_null Value.noConfusion

/-- An input says what stands in a document and in the source of its specification, or what stands
for it where there is nothing. -/
structure Says (input : FunctionInput) (entries source : Entries) : Prop where
  sourceType : Entries.orElse source "type" (.str inlineSource) = .str inlineSource
  text : (Entries.field? source "inline").getD (.str "") = .str input.artifact.source
  transpile : (Entries.field? source "transpile").getD (.bool false) =
    .bool input.artifact.transpile
  annotations : ∃ access, annotationsIn (Entries.orElse entries "metadata" (.object [])) =
    .mapping access input.artifact.annotations.toEntries
  values : ∃ access, Entries.orElse
      (((Entries.orElse entries "spec" (.object [])).entries?).getD []) "values" (.object []) =
    .mapping access input.values.toEntries

def IsReadFrom (document : Value) (input : FunctionInput) : Prop :=
  ∃ entries source, document.entries? = some entries ∧
    sourceEntries? (Entries.orElse entries "spec" (.object [])) = some source ∧
    input.Says entries source

theorem isReadFrom_of_ofValue {document : Value} {input : FunctionInput}
    (h : ofValue document = .ok input) : input.IsReadFrom document := by
  obtain ⟨entries, source, artifact, hentries, hsource, hartifact, hinput⟩ := parts_of_ofValue h
  obtain ⟨hinline, values, hvalues, rfl⟩ := of_ofParts hinput
  obtain ⟨htext, htranspile, hannotations⟩ := Artifact.of_ofParts hartifact
  exact ⟨entries, source, hentries, hsource, {
    sourceType := (Value.equals_str_iff _ _).mp hinline
    text := htext
    transpile := htranspile
    annotations := TextMap.exists_of_ofValue (annotationsIn_ne_null _) hannotations
    values := TextMap.exists_of_ofValue (Entries.orElse_ne_null Value.noConfusion) hvalues }⟩

end FunctionInput

namespace Step

structure IsReadFrom (document : Value) (s : Step) : Prop where
  name : document.subscript "step" = .ok (.str s.name)
  function : ∃ reference, document.subscript "functionRef" = .ok reference ∧
    reference.subscript "name" = .ok (.str s.function)
  input : ∃ part, document.subscript "input" = .ok part ∧ s.input.IsReadFrom part

theorem of_ofValue {document : Value} {s : Step} (h : ofValue document = .ok s) :
    s.IsReadFrom document ∧ s.IsNamed := by
  obtain ⟨function, part, name, hparts, hinput, hmade⟩ := parts_of_ofValue h
  obtain ⟨hfunction, hpart, hname⟩ := of_partsOf hparts
  obtain ⟨⟨rfl, -⟩, ⟨rfl, -⟩, -⟩ := of_ofParts hmade
  have hread := FunctionInput.isReadFrom_of_ofValue hinput
  exact ⟨⟨hname, hfunction, part, hpart, hread⟩, isNamed_of_ofParts hmade⟩

end Step

namespace Manifest

/-- The steps of a manifest are those of a document's pipeline, one for each part and in order. -/
def IsReadFrom (document : Value) (m : Manifest) : Prop :=
  ∃ spec documents, document.subscript "spec" = .ok spec ∧
    (Entries.orElse ((spec.entries?).getD []) "pipeline" (.list [])).items? = some documents ∧
    List.Forall₂ Step.IsReadFrom documents m.steps

theorem of_ofValue {document : Value} {m : Manifest} (h : ofValue document = .ok m) :
    m.IsReadFrom document ∧ m.IsNamed := by
  obtain ⟨spec, documents, hparts, hdocuments, hsteps, -, -, hchecked⟩ := parts_of_ofValue h
  constructor
  · exact ⟨spec, documents, (of_partsOf hparts).1, items?_of_stepsIn hdocuments,
      (forall₂_of_mapM_ok hsteps).imp fun _ _ hstep => (Step.of_ofValue hstep).1⟩
  · apply isNamed_of_nodup _ (nodup_of_checked hchecked)
    intro s hs
    obtain ⟨part, -, hstep⟩ := exists_of_mapM_ok hsteps s hs
    exact (Step.of_ofValue hstep).2

/-- Any value is read as a manifest or refused by a rule, unless an integer with too many digits
would be told. A manifest says what the pipeline's documents say, in order; whatever steps are asked
for then, those with new names are added in order and the others are refused. -/
theorem ofValue_contained (document : Value) :
    (∃ m, ofValue document = .ok m ∧ m.IsReadFrom document ∧
        ∀ added : List Step, (∀ s ∈ added, s.IsChecked) →
          (m.extendedBy added).steps = m.steps ++ newSteps m.names added ∧
            (m.extendedBy added).IsNamed) ∨
      (∃ cause, ofValue document = .error (.serialization cause)) ∨
      (∃ cause, ofValue document = .error (.embed cause)) ∨
      (ofValue document = .error (.fault .longInteger) ∧
        ∃ v, Tells document v ∧ v.hasLongInteger = true) := by
  cases hresult : ofValue document with
  | ok m =>
      obtain ⟨hread, hnamed⟩ := of_ofValue hresult
      refine Or.inl ⟨m, rfl, hread, ?_⟩
      intro added hadded
      exact ⟨by rw [extendedBy_eq hnamed.distinct], hnamed.extendedBy hadded⟩
  | error failure =>
      right
      cases refused_of_error hresult with
      | serialization cause => exact Or.inl ⟨cause, rfl⟩
      | embed cause => exact Or.inr (Or.inl ⟨cause, rfl⟩)
      | unshown hv hlong => exact Or.inr (Or.inr ⟨rfl, _, hv, hlong⟩)

/-- Four calls for a sparse document's manifest: two of them with a name in use by then. -/
def askedSteps : List Step :=
  [{ sparseStep with function := "g" }, { sparseStep with name := "second" },
    { sparseStep with name := "second", function := "g" }, { sparseStep with name := "third" }]

theorem ofValue_contained_sparse :
    (∀ s ∈ askedSteps, s.IsChecked) ∧ sparse.IsReadFrom sparseDocument ∧
      (sparse.extendedBy askedSteps).steps =
        [sparseStep, { sparseStep with name := "second" }, { sparseStep with name := "third" }] ∧
      (sparse.extendedBy askedSteps).step? "second" = some { sparseStep with name := "second" } ∧
      (sparse.extendedBy askedSteps).step? "fourth" = none := by
  have hread : ofValue sparseDocument = .ok sparse := ok_of_toOption (by decide +kernel)
  have hnamed : ∀ s ∈ askedSteps, isBlankText s.name = false ∧ isBlankText s.function = false := by
    decide
  have hmade : ∀ s ∈ askedSteps, s.IsChecked := fun s hs =>
    Step.isChecked_iff.mpr ⟨(hnamed s hs).1, (hnamed s hs).2⟩
  have hnew : newSteps sparse.names askedSteps =
      [{ sparseStep with name := "second" }, { sparseStep with name := "third" }] := by
    simp [askedSteps, newSteps, names, sparse, sparseStep]
  rcases ofValue_contained sparseDocument with ⟨m, hm, hsays, hadded⟩ | ⟨_, hcause⟩ | ⟨_, hcause⟩ |
    ⟨hcause, -⟩
  · rw [hread] at hm
    cases hm
    obtain ⟨hsteps, hextended⟩ := hadded askedSteps hmade
    have hall : (sparse.extendedBy askedSteps).steps =
        [sparseStep, { sparseStep with name := "second" },
          { sparseStep with name := "third" }] := by
      rw [hsteps, hnew]
      rfl
    refine ⟨hmade, hsays, hall, ?_, ?_⟩
    · exact hextended.found { sparseStep with name := "second" } (by simp [hall])
    · exact hextended.notFound "fourth" (by simp [names, hall, sparseStep])
  all_goals
    rw [hread] at hcause
    cases hcause

/-- A composition without steps whose mode is the least integer with too many digits. -/
def longModeDocument : Value :=
  .object [(.str "spec", .object
      [(.str "compositeTypeRef",
          .object [(.str "apiVersion", .str "e/v1"), (.str "kind", .str "XR")]),
        (.str "mode", .int (Nat.pow 10 digitLimit))]),
    (.str "metadata", .object [(.str "name", .str "f")])]

theorem ofValue_faults_on_long_mode :
    ofValue longModeDocument = .error (.fault .longInteger) ∧
      (Failure.fault .longInteger).kind? = none :=
  ⟨error_of_errorOf? (by decide +kernel), rfl⟩

end Manifest

end FunctionPipeline

import FunctionPipeline.Proofs.Document.LongIntegers
import FunctionPipeline.Proofs.Manifest.Parts

/-!
Why documents are refused as inputs, steps and manifests. Each rule that a document breaks has its
own failure. Three values of the document are told in such failures: the mode, the source type of a
step's input, and the name of a step whose input is refused. What is left is a failure that would
tell a value that holds an integer with too many digits.
-/

namespace FunctionPipeline

theorem exists_error_of_mapM {ε α β : Type} {f : α → Except ε β} {xs : List α} {e : ε}
    (h : xs.mapM f = .error e) : ∃ x ∈ xs, f x = .error e := by
  induction xs with
  | nil => cases h
  | cons x xs ih =>
      rw [List.mapM_cons] at h
      rcases error_of_bind h with hfirst | ⟨y, -, hrest⟩
      · exact ⟨x, by simp, hfirst⟩
      · rcases error_of_bind hrest with hothers | ⟨ys, -, hend⟩
        · obtain ⟨z, hz, hrefused⟩ := ih hothers
          exact ⟨z, by simp [hz], hrefused⟩
        · cases hend

inductive IsRefusal (document : Value) : Failure → Prop where
  | serialization (cause : SerializationError) : IsRefusal document (.serialization cause)
  | embed (cause : EmbedError) : IsRefusal document (.embed cause)
  | unshown : document.hasLongInteger = true → IsRefusal document (.fault .longInteger)

/-- How something can be refused in a failure that tells one of some values. -/
inductive RefusedTelling (told : Value → Prop) : Failure → Prop where
  | serialization (cause : SerializationError) : RefusedTelling told (.serialization cause)
  | embed (cause : EmbedError) : RefusedTelling told (.embed cause)
  | unshown {v : Value} (hv : told v) (hlong : v.hasLongInteger = true) :
      RefusedTelling told (.fault .longInteger)

theorem RefusedTelling.mono {told more : Value → Prop} {failure : Failure}
    (h : RefusedTelling told failure) (hmore : ∀ v, told v → more v) :
    RefusedTelling more failure := by
  cases h with
  | serialization cause => exact .serialization cause
  | embed cause => exact .embed cause
  | unshown hv hlong => exact .unshown (hmore _ hv) hlong

/-- What tells a part of a document is refused as the document is. -/
theorem RefusedTelling.isRefusal {told : Value → Prop} {document : Value} {failure : Failure}
    (h : RefusedTelling told failure) (hpart : ∀ v, told v → document.IsShort → v.IsShort) :
    IsRefusal document failure := by
  cases h with
  | serialization cause => exact .serialization cause
  | embed cause => exact .embed cause
  | unshown hv hlong => exact .unshown (Value.hasLongInteger_of_part (hpart _ hv) hlong)

namespace FunctionInput

/-- A source type is told unless it is the one there is. -/
inductive Tells (document : Value) : Value → Prop where
  | sourceType {entries source : Entries} (hentries : document.entries? = some entries)
      (hsource : sourceEntries? (Entries.orElse entries "spec" (.object [])) = some source)
      (hother : (Entries.orElse source "type" (.str inlineSource)).equals (.str inlineSource) =
        false) :
      Tells document (Entries.orElse source "type" (.str inlineSource))

private theorem artifact_refusal {source transpile annotations : Value} {failure : Failure}
    (h : (Artifact.ofParts source transpile annotations).mapError Failure.embed = .error failure) :
    ∃ cause, failure = .embed cause := by
  cases hmade : Artifact.ofParts source transpile annotations with
  | ok artifact => rw [hmade] at h; cases h
  | error cause => rw [hmade] at h; cases h; exact ⟨cause, rfl⟩

theorem unsupported_refusal (sourceType : Value) :
    (∃ cause, unsupported sourceType = .embed cause) ∨
      (unsupported sourceType = .fault .longInteger ∧ sourceType.hasLongInteger = true) := by
  cases hlong : sourceType.hasLongInteger with
  | true => exact Or.inr ⟨by simp [unsupported, Value.shown, hlong], rfl⟩
  | false =>
      have hshown : sourceType.shown = .ok sourceType.text := Value.IsShort.shown hlong
      exact Or.inl ⟨.unsupportedSource sourceType.text, by simp only [unsupported, hshown]⟩

private theorem parts_refusal {artifact : Artifact} {values sourceType apiVersion kind : Value}
    {failure : Failure}
    (h : ofParts artifact values sourceType apiVersion kind = .error failure) :
    (∃ cause, failure = .embed cause) ∨
      (failure = .fault .longInteger ∧ sourceType.equals (.str inlineSource) = false ∧
        sourceType.hasLongInteger = true) := by
  unfold ofParts at h
  split at h
  next hother =>
    cases h
    rcases unsupported_refusal sourceType with hrule | ⟨hfault, hlong⟩
    · exact Or.inl hrule
    · exact Or.inr ⟨hfault, by simpa using hother, hlong⟩
  next =>
    split at h
    · cases h
    · cases h
      exact Or.inl ⟨_, rfl⟩

theorem Tells.isShort {document v : Value} (h : Tells document v) (hshort : document.IsShort) :
    v.IsShort := by
  cases h with
  | sourceType hentries hsource hother =>
      obtain ⟨below, hbelow, hes⟩ := Option.bind_eq_some_iff.mp hsource
      have hspec : (Entries.orElse _ "spec" (.object [])).IsShort :=
        (hshort.entries? hentries).orElse "spec" rfl
      exact ((hspec.part? hbelow).entries? hes).orElse "type" rfl

/-- A document is refused as an input by a rule, unless its source type is told and cannot be. -/
theorem refused_of_error {document : Value} {failure : Failure}
    (h : ofValue document = .error failure) :
    (∃ cause, failure = .invalidInput cause) ∨
      (failure = .fault .longInteger ∧ ∃ v, Tells document v ∧ v.hasLongInteger = true) := by
  unfold ofValue at h
  split at h
  next entries hentries =>
    simp only at h
    split at h
    next source hsource =>
      split at h
      next =>
        split at h
        next => cases h; exact Or.inl ⟨_, rfl⟩
        next made hnotEmbed =>
          rcases error_of_bind h with hartifact | ⟨artifact, -, hparts⟩
          · obtain ⟨cause, rfl⟩ := artifact_refusal hartifact
            exact absurd h (hnotEmbed cause)
          · rcases parts_refusal hparts with ⟨cause, rfl⟩ | ⟨rfl, hother, hlong⟩
            · exact absurd h (hnotEmbed cause)
            · exact Or.inr ⟨rfl, _, .sourceType hentries hsource hother, hlong⟩
      next => cases h; exact Or.inl ⟨_, rfl⟩
    next => cases h; exact Or.inl ⟨_, rfl⟩
  next => cases h; exact Or.inl ⟨_, rfl⟩

end FunctionInput

namespace Step

/-- The name of a step is told if its input is refused. -/
inductive Tells (document : Value) : Value → Prop where
  | name {function input name : Value} {cause : InputError}
      (hparts : partsOf document = .ok (function, input, name))
      (hinput : FunctionInput.ofValue input = .error (.invalidInput cause)) : Tells document name
  | input {function input name v : Value} (hparts : partsOf document = .ok (function, input, name))
      (hv : FunctionInput.Tells input v) : Tells document v

private theorem isShort_parts {document function input name : Value}
    (h : partsOf document = .ok (function, input, name)) (hshort : document.IsShort) :
    input.IsShort ∧ name.IsShort := by
  obtain ⟨-, hinput, hname⟩ := of_partsOf h
  exact ⟨hshort.subscript hinput, hshort.subscript hname⟩

theorem Tells.isShort {document v : Value} (h : Tells document v) (hshort : document.IsShort) :
    v.IsShort := by
  cases h with
  | name hparts hinput => exact (isShort_parts hparts hshort).2
  | input hparts hv => exact hv.isShort (isShort_parts hparts hshort).1

theorem inputFailure_refusal (name : Value) (cause : InputError) :
    RefusedTelling (· = name) (inputFailure name (.invalidInput cause)) := by
  unfold inputFailure Value.shown
  cases hlong : name.hasLongInteger with
  | true => exact .unshown rfl hlong
  | false => exact .serialization _

/-- A document is refused as a step. -/
theorem refused_of_error {document : Value} {failure : Failure}
    (h : ofValue document = .error failure) : RefusedTelling (Tells document) failure := by
  unfold ofValue at h
  split at h
  next => cases h; exact .serialization _
  next function input name hparts =>
    split at h
    next failure hfailure =>
      cases h
      rcases FunctionInput.refused_of_error hfailure with ⟨cause, rfl⟩ | ⟨rfl, v, hv, hlong⟩
      · apply (inputFailure_refusal name cause).mono
        rintro v rfl
        exact .name hparts hfailure
      · exact .unshown (.input hparts hv) hlong
    next =>
      split at h
      next => cases h; exact .embed _
      next => cases h

end Step

namespace Manifest

/-- A mode is told unless it is the one there is. Beside it the steps tell their values. -/
inductive Tells (document : Value) : Value → Prop where
  | mode {spec name compositeApiVersion compositeKind : Value}
      (hparts : partsOf document = .ok (spec, name, compositeApiVersion, compositeKind))
      (hother : ((Entries.field? ((spec.entries?).getD []) "mode").getD
        (.str pipelineMode)).equals (.str pipelineMode) = false) :
      Tells document
        ((Entries.field? ((spec.entries?).getD []) "mode").getD (.str pipelineMode))
  | step {spec name compositeApiVersion compositeKind : Value} {documents : List Value}
      {d v : Value}
      (hparts : partsOf document = .ok (spec, name, compositeApiVersion, compositeKind))
      (hdocuments : stepsIn ((spec.entries?).getD []) = .ok documents) (hd : d ∈ documents)
      (hv : Step.Tells d v) : Tells document v

private theorem isShort_spec {document spec name compositeApiVersion compositeKind : Value}
    (h : partsOf document = .ok (spec, name, compositeApiVersion, compositeKind))
    (hshort : document.IsShort) : spec.IsShort :=
  hshort.subscript (of_partsOf h).1

private theorem isShort_entries {v : Value} (h : v.IsShort) : ((v.entries?).getD []).IsShort := by
  cases hentries : v.entries? with
  | none => rfl
  | some es => exact h.entries? hentries

private theorem isShort_steps {es : Entries} {documents : List Value}
    (h : stepsIn es = .ok documents) (hshort : es.IsShort) : ∀ d ∈ documents, d.IsShort := by
  have hpipeline : (Entries.orElse es "pipeline" (.list [])).IsShort :=
    hshort.orElse "pipeline" rfl
  exact hpipeline.items? (items?_of_stepsIn h)

theorem Tells.isShort {document v : Value} (h : Tells document v) (hshort : document.IsShort) :
    v.IsShort := by
  cases h with
  | mode hparts hother =>
      exact (isShort_entries (isShort_spec hparts hshort)).getD "mode" rfl
  | step hparts hdocuments hd hv =>
      apply hv.isShort
      exact isShort_steps hdocuments (isShort_entries (isShort_spec hparts hshort)) _ hd

theorem unsupported_refusal (mode : Value) : RefusedTelling (· = mode) (unsupported mode) := by
  unfold unsupported Value.shown
  cases hlong : mode.hasLongInteger with
  | true => exact .unshown rfl hlong
  | false => exact .serialization _

private theorem stepsIn_refusal {document spec name compositeApiVersion compositeKind : Value}
    {failure : Failure}
    (hparts : partsOf document = .ok (spec, name, compositeApiVersion, compositeKind))
    (h : stepsIn ((spec.entries?).getD []) = .error failure) :
    RefusedTelling (Tells document) failure := by
  unfold stepsIn at h
  simp only at h
  split at h
  next hother =>
    cases h
    apply (unsupported_refusal _).mono
    rintro v rfl
    exact .mode hparts (by simpa using hother)
  next =>
    split at h
    · cases h
    · cases h
      exact .serialization _

/-- A document is refused as a manifest. -/
theorem refused_of_error {document : Value} {failure : Failure}
    (h : ofValue document = .error failure) : RefusedTelling (Tells document) failure := by
  unfold ofValue at h
  split at h
  next => cases h; exact .serialization _
  next spec name compositeApiVersion compositeKind hparts =>
    split at h
    next failure hsteps =>
      cases h
      exact stepsIn_refusal hparts hsteps
    next documents hdocuments =>
      rcases error_of_bind h with hsteps | ⟨steps, -, hrest⟩
      · obtain ⟨d, hd, hrefused⟩ := exists_error_of_mapM hsteps
        exact (Step.refused_of_error hrefused).mono fun v hv => .step hparts hdocuments hd hv
      · simp only at hrest
        split at hrest
        · cases hrest
        · cases hrest
          exact .embed _

theorem isRefusal_of_error {document : Value} {failure : Failure}
    (h : ofValue document = .error failure) : IsRefusal document failure :=
  (refused_of_error h).isRefusal fun _ => Tells.isShort

end Manifest

end FunctionPipeline

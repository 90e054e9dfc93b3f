import FunctionPipeline.Manifest.Basic
import FunctionPipeline.Proofs.Tool.Operations

/-!
What readers take from a document that they accept. Each reader is opened once, here: an accepted
input, step or manifest is made of the parts named, and each part was found in its place.
-/

namespace FunctionPipeline

theorem ok_of_mapError {ε ζ α : Type} {f : ε → ζ} {r : Except ε α} {x : α}
    (h : r.mapError f = .ok x) : r = .ok x := by
  cases r with
  | error e => cases h
  | ok y =>
      cases h
      rfl

namespace FunctionInput

theorem of_ofParts {artifact : Artifact} {values sourceType apiVersion kind : Value}
    {input : FunctionInput}
    (h : ofParts artifact values sourceType apiVersion kind = .ok input) :
    sourceType.equals (.str inlineSource) = true ∧
      ∃ found, TextMap.ofValue "values" values = .ok found ∧
        input = ⟨artifact, found, apiVersion, kind⟩ := by
  unfold ofParts at h
  split at h
  next => cases h
  next hinline =>
    split at h
    next found hfound =>
      cases h
      exact ⟨by simpa using hinline, found, hfound, rfl⟩
    next => cases h

/-- An input is made of the parts of a document and of the source in its specification. -/
theorem parts_of_ofValue {document : Value} {input : FunctionInput}
    (h : ofValue document = .ok input) :
    ∃ entries source artifact, document.entries? = some entries ∧
      sourceEntries? (Entries.orElse entries "spec" (.object [])) = some source ∧
      Artifact.ofParts ((Entries.field? source "inline").getD (.str ""))
          ((Entries.field? source "transpile").getD (.bool false))
          (annotationsIn (Entries.orElse entries "metadata" (.object []))) = .ok artifact ∧
      ofParts artifact
          (Entries.orElse (((Entries.orElse entries "spec" (.object [])).entries?).getD []) "values"
            (.object []))
          (Entries.orElse source "type" (.str inlineSource))
          ((Entries.field? entries "apiVersion").getD (.str usualApiVersion))
          ((Entries.field? entries "kind").getD (.str usualKind)) = .ok input := by
  unfold ofValue at h
  split at h
  next entries hentries =>
    simp only at h
    split at h
    next source hsource =>
      split at h
      next text htext =>
        split at h
        next => cases h
        next =>
          obtain ⟨artifact, hartifact, hinput⟩ := ok_of_bind h
          exact ⟨entries, source, artifact, hentries, hsource, ok_of_mapError hartifact, hinput⟩
      next => cases h
    next => cases h
  next => cases h

end FunctionInput

namespace Step

theorem of_partsOf {document function input name : Value}
    (h : partsOf document = .ok (function, input, name)) :
    (∃ reference, document.subscript "functionRef" = .ok reference ∧
        reference.subscript "name" = .ok function) ∧
      document.subscript "input" = .ok input ∧ document.subscript "step" = .ok name := by
  obtain ⟨reference, hreference, hrest⟩ := ok_of_bind h
  obtain ⟨_, hfunction, hrest⟩ := ok_of_bind hrest
  obtain ⟨_, hinput, hrest⟩ := ok_of_bind hrest
  obtain ⟨_, hname, hend⟩ := ok_of_bind hrest
  cases hend
  exact ⟨⟨reference, hreference, hfunction⟩, hinput, hname⟩

theorem of_nameIn? {v : Value} {s : String} (h : nameIn? v = some s) :
    v = .str s ∧ isBlankText s = false := by
  unfold nameIn? at h
  split at h
  next =>
    split at h
    next => cases h
    next hblank =>
      cases h
      exact ⟨rfl, by simpa using hblank⟩
  next => cases h

/-- What is made has the names and the input given, and neither name is blank. -/
theorem of_ofParts {name function : Value} {input : FunctionInput} {s : Step}
    (h : ofParts name function input = .ok s) :
    (name = .str s.name ∧ isBlankText s.name = false) ∧
      (function = .str s.function ∧ isBlankText s.function = false) ∧ s.input = input := by
  obtain ⟨names, hnames, hend⟩ := ok_of_bind h
  cases hend
  unfold namesOf at hnames
  split at hnames
  next => cases hnames
  next step hstep =>
    split at hnames
    next => cases hnames
    next found hfound =>
      cases hnames
      exact ⟨of_nameIn? hstep, of_nameIn? hfound, rfl⟩

/-- A step is made of the parts of a document and of the input that one of them is read as. -/
theorem parts_of_ofValue {document : Value} {s : Step} (h : ofValue document = .ok s) :
    ∃ function input name, partsOf document = .ok (function, input, name) ∧
      FunctionInput.ofValue input = .ok s.input ∧ ofParts name function s.input = .ok s := by
  unfold ofValue at h
  split at h
  next => cases h
  next function input name hparts =>
    split at h
    next => cases h
    next found hinput =>
      split at h
      next => cases h
      next made hmade =>
        cases h
        obtain rfl := (of_ofParts hmade).2.2
        exact ⟨function, input, name, hparts, hinput, hmade⟩

end Step

namespace Manifest

theorem eq_of_checked {m n : Manifest} (h : m.checked = .ok n) : n = m := by
  unfold checked at h
  split at h
  · cases h
    rfl
  · cases h

theorem of_partsOf {document spec name compositeApiVersion compositeKind : Value}
    (h : partsOf document = .ok (spec, name, compositeApiVersion, compositeKind)) :
    document.subscript "spec" = .ok spec ∧
      (∃ metadata, document.subscript "metadata" = .ok metadata ∧
        metadata.subscript "name" = .ok name) ∧
      ∃ type, spec.subscript "compositeTypeRef" = .ok type ∧
        type.subscript "apiVersion" = .ok compositeApiVersion ∧
        type.subscript "kind" = .ok compositeKind := by
  obtain ⟨_, hspec, hrest⟩ := ok_of_bind h
  obtain ⟨metadata, hmetadata, hrest⟩ := ok_of_bind hrest
  obtain ⟨_, hname, hrest⟩ := ok_of_bind hrest
  obtain ⟨type, htype, hrest⟩ := ok_of_bind hrest
  obtain ⟨_, hversion, hrest⟩ := ok_of_bind hrest
  obtain ⟨_, hkind, hend⟩ := ok_of_bind hrest
  cases hend
  exact ⟨hspec, ⟨metadata, hmetadata, hname⟩, type, htype, hversion, hkind⟩

theorem items?_of_stepsIn {spec : Entries} {documents : List Value}
    (h : stepsIn spec = .ok documents) :
    (Entries.orElse spec "pipeline" (.list [])).items? = some documents := by
  unfold stepsIn at h
  simp only at h
  split at h
  next => cases h
  next =>
    split at h
    next items hitems =>
      cases h
      rw [hitems]
      rfl
    next => cases h

/-- A manifest has the parts of a document and the steps that its pipeline is read as, whose names
were checked. -/
theorem parts_of_ofValue {document : Value} {m : Manifest} (h : ofValue document = .ok m) :
    ∃ spec documents,
      partsOf document = .ok (spec, m.name, m.compositeApiVersion, m.compositeKind) ∧
      stepsIn ((spec.entries?).getD []) = .ok documents ∧
      documents.mapM Step.ofValue = .ok m.steps ∧
      m.apiVersion = (Entries.field? ((document.entries?).getD []) "apiVersion").getD
        (.str usualApiVersion) ∧
      m.kind = (Entries.field? ((document.entries?).getD []) "kind").getD (.str usualKind) ∧
      m.checked = .ok m := by
  unfold ofValue at h
  split at h
  next => cases h
  next spec name compositeApiVersion compositeKind hparts =>
    split at h
    next => cases h
    next documents hdocuments =>
      obtain ⟨steps, hsteps, hchecked⟩ := ok_of_bind h
      simp only at hchecked
      split at hchecked
      next found hfound =>
        cases hchecked
        obtain rfl := eq_of_checked hfound
        exact ⟨spec, documents, hparts, hdocuments, hsteps, rfl, rfl, hfound⟩
      next => cases hchecked

end Manifest

end FunctionPipeline

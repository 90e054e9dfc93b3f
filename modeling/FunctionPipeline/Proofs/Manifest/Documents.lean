import FunctionPipeline.Proofs.Document.Closed
import FunctionPipeline.Proofs.Manifest.Parts

/-!
Manifests and their documents. The document of an input leaves out annotations and values if there
are none, and reading it puts just that back, so inputs, steps and manifests are read back as they
were, whatever closed values their versions, kinds and names are.
-/

namespace FunctionPipeline

namespace TextMap

theorem isClosed_toEntries (m : TextMap) : Entries.IsClosed m.toEntries := by
  induction m with
  | nil => rfl
  | cons e m ih => exact ih

theorem ofEntries_toEntries (what : String) (m : TextMap) : ofEntries what m.toEntries = .ok m := by
  induction m with
  | nil => rfl
  | cons e m ih =>
      rw [toEntries] at ih
      rw [toEntries, List.map_cons, ofEntries, ih]
      rfl

/-- Entries that are let through are those of the mapping they give. -/
theorem eq_toEntries_of_ofEntries {what : String} {es : Entries} {m : TextMap}
    (h : ofEntries what es = .ok m) : es = m.toEntries := by
  induction es generalizing m with
  | nil =>
      cases h
      rfl
  | cons e es ih =>
      obtain ⟨key, v⟩ := e
      cases key <;> cases v <;> try cases h
      next key text =>
        cases hrest : ofEntries what es with
        | error cause =>
            rw [ofEntries, hrest] at h
            cases h
        | ok rest =>
            rw [ofEntries, hrest] at h
            cases h
            rw [ih hrest]
            rfl

theorem ofValue_toValue (what : String) (m : TextMap) : ofValue what m.toValue = .ok m :=
  ofEntries_toEntries what m

@[simp] theorem isClosed_toValue (m : TextMap) : m.toValue.IsClosed :=
  Value.isClosed_mapping (isClosed_toEntries m)

theorem isTrue_toValue {m : TextMap} (hnonempty : m.isEmpty = false) : m.toValue.isTrue = true := by
  cases m with
  | nil => cases hnonempty
  | cons e m => rfl

end TextMap

/-- A packaged function is made of its own parts. -/
theorem Artifact.ofParts_self (artifact : Artifact) :
    ofParts (.str artifact.source) (.bool artifact.transpile) artifact.annotations.toValue =
      .ok artifact := by
  simp only [ofParts, TextMap.ofValue_toValue]
  rfl

namespace FunctionInput

structure IsClosed (input : FunctionInput) : Prop where
  apiVersion : input.apiVersion.IsClosed
  kind : input.kind.IsClosed

/-- An input is made of its own parts. -/
theorem ofParts_self (input : FunctionInput) :
    ofParts input.artifact input.values.toValue (.str inlineSource) input.apiVersion input.kind =
      .ok input := by
  simp [ofParts, Value.str_equals_self, TextMap.ofValue_toValue]

def specEntries (input : FunctionInput) : Entries :=
  (.str "source", sourceValue input.artifact) :: valuesPart input.values

def entries (input : FunctionInput) : Entries :=
  [(.str "apiVersion", input.apiVersion), (.str "kind", input.kind)] ++
    metadata input.artifact.annotations ++ [(.str "spec", .object input.specEntries)]

private theorem isClosed_specEntries (input : FunctionInput) :
    Entries.IsClosed input.specEntries := by
  have hsource : (sourceValue input.artifact).IsClosed := Value.isClosed_mapping (by simp)
  unfold specEntries valuesPart
  split <;> simp [hsource]

private theorem isClosed_entries {input : FunctionInput} (h : input.IsClosed) :
    Entries.IsClosed input.entries := by
  have hspec : (Value.object input.specEntries).IsClosed :=
    Value.isClosed_mapping (isClosed_specEntries input)
  have hmetadata : (Value.object [(.str "annotations",
      input.artifact.annotations.toValue)]).IsClosed := Value.isClosed_mapping (by simp)
  unfold entries metadata
  split <;> simp [h.apiVersion, h.kind, hspec, hmetadata]

theorem isClosed_toValue {input : FunctionInput} (h : input.IsClosed) : input.toValue.IsClosed :=
  Value.isClosed_mapping (isClosed_entries h)

private theorem orElse_values (input : FunctionInput) :
    Entries.orElse input.specEntries "values" (.object []) = input.values.toValue := by
  unfold specEntries valuesPart
  cases hempty : input.values.isEmpty with
  | true =>
      have hvalues : input.values = [] := by simpa using hempty
      simp [Entries.orElse, Entries.field?_cons, Entries.field?_nil, hvalues, TextMap.toValue,
        TextMap.toEntries]
  | false => simp [Entries.orElse, Entries.field?_cons, TextMap.isTrue_toValue hempty]

private theorem annotationsIn_metadata (input : FunctionInput) :
    annotationsIn (Entries.orElse input.entries "metadata" (.object [])) =
      input.artifact.annotations.toValue := by
  unfold entries metadata
  cases hempty : input.artifact.annotations.isEmpty with
  | true =>
      have hannotations : input.artifact.annotations = [] := by simpa using hempty
      simp [Entries.orElse, Entries.field?_cons, Entries.field?_nil, hannotations]
      rfl
  | false =>
      have hpart : Value.part? (.object [(.str "annotations",
          input.artifact.annotations.toValue)]) "annotations" =
            some input.artifact.annotations.toValue := by
        rw [Value.part?, Value.entries?_of_closed (by simp)]
        simp [Entries.field?_cons]
      have hmetadata : (Value.object [(.str "annotations",
          input.artifact.annotations.toValue)]).isTrue = true := rfl
      simp [Entries.orElse, Entries.field?_cons, annotationsIn, hpart, hmetadata,
        TextMap.isTrue_toValue hempty]

private theorem orElse_spec (input : FunctionInput) :
    Entries.orElse input.entries "spec" (.object []) = .object input.specEntries := by
  unfold entries metadata
  split <;> simp [Entries.orElse, Entries.field?_cons, Value.isTrue, specEntries]

private theorem sourceEntries?_spec (input : FunctionInput) :
    sourceEntries? (.object input.specEntries) = some [(.str "transpile",
      .bool input.artifact.transpile), (.str "inline", .str input.artifact.source)] := by
  rw [sourceEntries?, Value.part?, Value.entries?_of_closed (isClosed_specEntries input)]
  simp [specEntries, Entries.field?_cons, sourceValue, Value.entries?_of_closed]

/-- An input is read back from its document. -/
theorem ofValue_toValue {input : FunctionInput} (h : input.IsClosed) :
    ofValue input.toValue = .ok input := by
  have hentries : input.toValue.entries? = some input.entries :=
    Value.entries?_of_closed (isClosed_entries h)
  have hapiVersion : Entries.field? input.entries "apiVersion" = some input.apiVersion := by
    simp [entries, Entries.field?_cons]
  have hkindField : Entries.field? input.entries "kind" = some input.kind := by
    simp [entries, Entries.field?_cons]
  have hspec : ((Value.object input.specEntries).entries?).getD [] = input.specEntries := by
    rw [Value.entries?_of_closed (isClosed_specEntries input)]
    rfl
  unfold ofValue
  simp only [hentries, orElse_spec, sourceEntries?_spec, annotationsIn_metadata, hspec,
    orElse_values, hapiVersion, hkindField]
  -- the source is read from the two entries that are always written
  have hartifact : (Artifact.ofParts (.str input.artifact.source) (.bool input.artifact.transpile)
      input.artifact.annotations.toValue).mapError Failure.embed = .ok input.artifact := by
    rw [Artifact.ofParts_self]
    rfl
  simp [Entries.orElse, Entries.field?_cons, Entries.field?_nil, hartifact, ofParts_self, bind,
    Except.bind]

end FunctionInput

namespace Step

/-- A step with a closed input, neither of whose names is blank. -/
structure IsSound (s : Step) : Prop where
  name : isBlankText s.name = false
  function : isBlankText s.function = false
  input : s.input.IsClosed

/-- What is made of names that were checked and a closed input is sound. -/
theorem isSound_of_ofParts {name function : Value} {input : FunctionInput} {s : Step}
    (hinput : input.IsClosed) (h : ofParts name function input = .ok s) : s.IsSound := by
  obtain ⟨⟨-, hname⟩, ⟨-, hfunction⟩, rfl⟩ := of_ofParts h
  exact ⟨hname, hfunction, hinput⟩

theorem ofParts_self {s : Step} (h : s.IsSound) :
    ofParts (.str s.name) (.str s.function) s.input = .ok s := by
  simp [ofParts, namesOf, nameIn?, h.name, h.function, bind, Except.bind, pure, Except.pure]

private theorem isClosed_entries {s : Step} (h : s.IsSound) :
    Entries.IsClosed [(.str "step", .str s.name),
      (.str "functionRef", .object [(.str "name", .str s.function)]),
      (.str "input", s.input.toValue)] := by
  have hfunction : (Value.object [(.str "name", .str s.function)]).IsClosed :=
    Value.isClosed_mapping (by simp)
  simp [hfunction, FunctionInput.isClosed_toValue h.input]

theorem isClosed_toValue {s : Step} (h : s.IsSound) : s.toValue.IsClosed :=
  Value.isClosed_mapping (isClosed_entries h)

private theorem partsOf_toValue {s : Step} (h : s.IsSound) :
    partsOf s.toValue = .ok (.str s.function, s.input.toValue, .str s.name) := by
  have hfunction : s.toValue.subscript "functionRef" =
      .ok (.object [(.str "name", .str s.function)]) :=
    Value.subscript_of_closed (isClosed_entries h) (by simp [Entries.field?_cons])
  have hname : (Value.object [(.str "name", .str s.function)]).subscript "name" =
      .ok (.str s.function) :=
    Value.subscript_of_closed (by simp) (by simp [Entries.field?_cons])
  have hinput : s.toValue.subscript "input" = .ok s.input.toValue :=
    Value.subscript_of_closed (isClosed_entries h) (by simp [Entries.field?_cons])
  have hstep : s.toValue.subscript "step" = .ok (.str s.name) :=
    Value.subscript_of_closed (isClosed_entries h) (by simp [Entries.field?_cons])
  simp only [partsOf, hfunction, hname, hinput, hstep, bind, Except.bind, pure, Except.pure]

/-- A step is read back from its document. -/
theorem ofValue_toValue {s : Step} (h : s.IsSound) : ofValue s.toValue = .ok s := by
  simp only [ofValue, partsOf_toValue h, FunctionInput.ofValue_toValue h.input, ofParts_self h]

end Step

namespace Manifest

/-- A manifest of such steps with different names, whose other parts are closed. -/
structure IsSound (m : Manifest) : Prop where
  name : m.name.IsClosed
  compositeApiVersion : m.compositeApiVersion.IsClosed
  compositeKind : m.compositeKind.IsClosed
  apiVersion : m.apiVersion.IsClosed
  kind : m.kind.IsClosed
  steps : ∀ s ∈ m.steps, s.IsSound
  checked : m.checked = .ok m

def specEntries (m : Manifest) : Entries :=
  [(.str "compositeTypeRef",
      .object [(.str "apiVersion", m.compositeApiVersion), (.str "kind", m.compositeKind)]),
    (.str "mode", .str pipelineMode),
    (.str "pipeline", .list (m.steps.map Step.toValue))]

def entries (m : Manifest) : Entries :=
  [(.str "apiVersion", m.apiVersion), (.str "kind", m.kind),
    (.str "metadata", .object [(.str "name", m.name)]),
    (.str "spec", .object m.specEntries)]

private theorem isClosed_steps {m : Manifest} (h : m.IsSound) :
    ∀ document ∈ m.steps.map Step.toValue, document.IsClosed := by
  intro document hdocument
  obtain ⟨s, hs, rfl⟩ := List.mem_map.mp hdocument
  exact Step.isClosed_toValue (h.steps s hs)

private theorem isClosed_type {m : Manifest} (h : m.IsSound) :
    Entries.IsClosed [(.str "apiVersion", m.compositeApiVersion),
      (.str "kind", m.compositeKind)] := by
  simp [h.compositeApiVersion, h.compositeKind]

private theorem isClosed_specEntries {m : Manifest} (h : m.IsSound) :
    Entries.IsClosed m.specEntries := by
  have htype : (Value.object [(.str "apiVersion", m.compositeApiVersion),
      (.str "kind", m.compositeKind)]).IsClosed := Value.isClosed_mapping (isClosed_type h)
  have hpipeline : (Value.list (m.steps.map Step.toValue)).IsClosed :=
    Value.isClosed_sequence (isClosed_steps h)
  simp [specEntries, htype, hpipeline]

private theorem isClosed_entries {m : Manifest} (h : m.IsSound) :
    Entries.IsClosed m.entries := by
  have hmetadata : (Value.object [(.str "name", m.name)]).IsClosed :=
    Value.isClosed_mapping (by simp [h.name])
  have hspec : (Value.object m.specEntries).IsClosed :=
    Value.isClosed_mapping (isClosed_specEntries h)
  simp [entries, h.apiVersion, h.kind, hmetadata, hspec]

private theorem stepsIn_spec {m : Manifest} (h : m.IsSound) :
    stepsIn m.specEntries = .ok (m.steps.map Step.toValue) := by
  have hitems : (Value.list (m.steps.map Step.toValue)).items? = some (m.steps.map Step.toValue) :=
    Value.items?_of_closed (isClosed_steps h)
  have hsteps : Entries.orElse m.specEntries "pipeline" (.list []) =
      .list (m.steps.map Step.toValue) := by
    cases hempty : m.steps <;>
      simp [specEntries, Entries.orElse, Entries.field?_cons, Value.isTrue, hempty]
  have hmode : Entries.field? m.specEntries "mode" = some (.str pipelineMode) := by
    simp [specEntries, Entries.field?_cons]
  simp only [stepsIn, hsteps, hmode, Option.getD_some, Value.str_equals_self, hitems]
  rfl

private theorem mapM_steps {steps : List Step} (h : ∀ s ∈ steps, s.IsSound) :
    (steps.map Step.toValue).mapM Step.ofValue = .ok steps := by
  induction steps with
  | nil => rfl
  | cons s steps ih =>
      have hs := Step.ofValue_toValue (h s (by simp))
      have hsteps := ih fun t ht => h t (by simp [ht])
      simp [hs, hsteps, bind, Except.bind, pure, Except.pure]

private theorem partsOf_toValue {m : Manifest} (h : m.IsSound) :
    partsOf m.toValue =
      .ok (.object m.specEntries, m.name, m.compositeApiVersion, m.compositeKind) := by
  have hwhole : m.toValue = .object m.entries := rfl
  have hspec : (Value.object m.entries).subscript "spec" = .ok (.object m.specEntries) :=
    Value.subscript_of_closed (isClosed_entries h) (by simp [entries, Entries.field?_cons])
  have hmetadata : (Value.object m.entries).subscript "metadata" =
      .ok (.object [(.str "name", m.name)]) :=
    Value.subscript_of_closed (isClosed_entries h) (by simp [entries, Entries.field?_cons])
  have hname : (Value.object [(.str "name", m.name)]).subscript "name" = .ok m.name :=
    Value.subscript_of_closed (by simp [h.name]) (by simp [Entries.field?_cons])
  have htype : (Value.object m.specEntries).subscript "compositeTypeRef" =
      .ok (.object [(.str "apiVersion", m.compositeApiVersion), (.str "kind", m.compositeKind)]) :=
    Value.subscript_of_closed (isClosed_specEntries h)
      (by simp [specEntries, Entries.field?_cons])
  simp only [partsOf, hwhole, hspec, hmetadata, hname, htype, bind, Except.bind,
    Value.subscript_of_closed (isClosed_type h)
      (show Entries.field? _ "apiVersion" = some m.compositeApiVersion by
        simp [Entries.field?_cons]),
    Value.subscript_of_closed (isClosed_type h)
      (show Entries.field? _ "kind" = some m.compositeKind by simp [Entries.field?_cons])]
  rfl

/-- A manifest is read back from its document. -/
theorem ofValue_toValue {m : Manifest} (h : m.IsSound) : ofValue m.toValue = .ok m := by
  have hentries : m.toValue.entries? = some m.entries :=
    Value.entries?_of_closed (isClosed_entries h)
  have hspec : ((Value.object m.specEntries).entries?).getD [] = m.specEntries := by
    rw [Value.entries?_of_closed (isClosed_specEntries h)]
    rfl
  have hchecked := h.checked
  simp only [ofValue, partsOf_toValue h, hspec, stepsIn_spec h, mapM_steps h.steps, hentries]
  simp [entries, Entries.field?_cons, hchecked, bind, Except.bind, pure, Except.pure]

end Manifest

end FunctionPipeline

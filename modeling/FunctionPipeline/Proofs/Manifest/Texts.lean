import FunctionPipeline.Proofs.Manifest.Documents
import FunctionPipeline.Proofs.Yaml.AsciiDocuments

/-!
Manifests and their texts. The document of a manifest that passed the checks and whose texts are in
ASCII is a simple one, so the manifest is read back from its text, its sources character for
character.
-/

namespace FunctionPipeline

/-- No key is there twice if the value is a mapping. -/
def Value.HasDistinctKeys : Value → Prop
  | .mapping _ entries => (Entries.keys entries).Nodup
  | _ => True

def Value.IsAsciiText (v : Value) : Prop := ∃ s, v = .str s ∧ Yaml.IsAscii s.toList

theorem Value.IsAsciiText.isSimple {v : Value} (h : v.IsAsciiText) (n : Nat) :
    Yaml.IsSimple n v := by
  obtain ⟨s, rfl, hs⟩ := h
  exact .text hs

theorem Value.IsAsciiText.isClosed {v : Value} (h : v.IsAsciiText) : v.IsClosed :=
  Value.isClosed_of_tree (h.isSimple 0).isTree.1

namespace TextMap

def IsAscii (m : TextMap) : Prop := ∀ e ∈ m, Yaml.IsAscii e.1.toList ∧ Yaml.IsAscii e.2.toList

def IsDistinct (m : TextMap) : Prop := (Entries.keys m.toEntries).Nodup

/-- What is made of a mapping has the mapping's keys. -/
theorem isDistinct_of_ofValue {what : String} {v : Value} {m : TextMap} (hkeys : v.HasDistinctKeys)
    (h : ofValue what v = .ok m) : m.IsDistinct := by
  unfold ofValue at h
  split at h
  next =>
    cases h
    exact List.nodup_nil
  next access entries =>
    rw [IsDistinct, ← eq_toEntries_of_ofEntries h]
    exact hkeys
  next => cases h

theorem isSimple {m : TextMap} (hdistinct : m.IsDistinct) (hascii : m.IsAscii) (n : Nat) :
    Yaml.IsSimple (n + 1) m.toValue := by
  refine .object hdistinct ?_ ?_
  · intro e he
    obtain ⟨entry, hmem, rfl⟩ := List.mem_map.mp he
    exact ⟨entry.1, rfl, (hascii entry hmem).1⟩
  · intro e he
    obtain ⟨entry, hmem, rfl⟩ := List.mem_map.mp he
    exact .text (hascii entry hmem).2

end TextMap

def Artifact.IsMade (artifact : Artifact) : Prop :=
  ∃ source transpile annotations : Value, annotations.HasDistinctKeys ∧
    Artifact.ofParts source transpile annotations = .ok artifact

theorem Artifact.IsMade.annotations {artifact : Artifact} (h : artifact.IsMade) :
    artifact.annotations.IsDistinct := by
  obtain ⟨source, transpile, annotations, hkeys, hmade⟩ := h
  cases source <;> cases transpile <;> try cases hmade
  next source transpile =>
    cases hmap : TextMap.ofValue "annotations" annotations with
    | error cause =>
        rw [Artifact.ofParts, hmap] at hmade
        cases hmade
    | ok found =>
        rw [Artifact.ofParts, hmap] at hmade
        cases hmade
        exact TextMap.isDistinct_of_ofValue hkeys hmap

namespace FunctionInput

def IsMade (input : FunctionInput) : Prop :=
  input.artifact.IsMade ∧ ∃ values sourceType : Value, values.HasDistinctKeys ∧
    ofParts input.artifact values sourceType input.apiVersion input.kind = .ok input

theorem IsMade.values {input : FunctionInput} (h : input.IsMade) : input.values.IsDistinct := by
  obtain ⟨-, values, sourceType, hkeys, hmade⟩ := h
  unfold ofParts at hmade
  split at hmade
  next => cases hmade
  next =>
    split at hmade
    next found hmap =>
      obtain rfl : found = input.values := congrArg FunctionInput.values (Except.ok.inj hmade)
      exact TextMap.isDistinct_of_ofValue hkeys hmap
    next => cases hmade

structure IsAscii (input : FunctionInput) : Prop where
  apiVersion : input.apiVersion.IsAsciiText
  kind : input.kind.IsAsciiText
  source : Yaml.IsAscii input.artifact.source.toList
  annotations : input.artifact.annotations.IsAscii
  values : input.values.IsAscii

private theorem isSimple_source {artifact : Artifact}
    (hsource : Yaml.IsAscii artifact.source.toList) (n : Nat) :
    Yaml.IsSimple (n + 1) (sourceValue artifact) :=
  .object (by simp [Entries.keys]) (by simp [Yaml.IsAscii])
    (by simp [Yaml.IsSimple.text hsource, Yaml.IsSimple.truth])

private theorem isSimple_spec {input : FunctionInput} (hmade : input.IsMade)
    (hascii : input.IsAscii) (n : Nat) : Yaml.IsSimple (n + 2) (.object input.specEntries) := by
  have hsource := isSimple_source hascii.source n
  have hvalues := TextMap.isSimple hmade.values hascii.values n
  unfold specEntries valuesPart
  split
  · exact .object (by simp [Entries.keys]) (by simp [Yaml.IsAscii]) (by simp [hsource])
  · exact .object (by simp [Entries.keys]) (by simp [Yaml.IsAscii]) (by simp [hsource, hvalues])

theorem isSimple {input : FunctionInput} (hmade : input.IsMade) (hascii : input.IsAscii) (n : Nat) :
    Yaml.IsSimple (n + 3) input.toValue := by
  have hversion := hascii.apiVersion.isSimple (n + 2)
  have hkind := hascii.kind.isSimple (n + 2)
  have hspec := isSimple_spec hmade hascii n
  have hmetadata : Yaml.IsSimple (n + 2)
      (.object [(.str "annotations", input.artifact.annotations.toValue)]) :=
    .object (by simp [Entries.keys]) (by simp [Yaml.IsAscii])
      (by simp [TextMap.isSimple hmade.1.annotations hascii.annotations n])
  have hentries : input.toValue = .object input.entries := rfl
  rw [hentries]
  unfold entries metadata
  split
  · exact .object (by simp [Entries.keys]) (by simp [Yaml.IsAscii])
      (by simp [hversion, hkind, hspec])
  · exact .object (by simp [Entries.keys]) (by simp [Yaml.IsAscii])
      (by simp [hversion, hkind, hmetadata, hspec])

end FunctionInput

namespace Step

def IsMade (s : Step) : Prop :=
  s.input.IsMade ∧ ∃ name function : Value, ofParts name function s.input = .ok s

structure IsAscii (s : Step) : Prop where
  name : Yaml.IsAscii s.name.toList
  function : Yaml.IsAscii s.function.toList
  input : s.input.IsAscii

theorem isSound {s : Step} (hmade : s.IsMade) (hascii : s.IsAscii) : s.IsSound := by
  obtain ⟨-, name, function, hparts⟩ := hmade
  exact isSound_of_ofParts ⟨hascii.input.apiVersion.isClosed, hascii.input.kind.isClosed⟩ hparts

theorem isSimple {s : Step} (hmade : s.IsMade) (hascii : s.IsAscii) (n : Nat) :
    Yaml.IsSimple (n + 4) s.toValue := by
  have hinput := FunctionInput.isSimple hmade.1 hascii.input n
  have hfunction : Yaml.IsSimple (n + 3) (.object [(.str "name", .str s.function)]) :=
    .object (by simp [Entries.keys]) (by simp [Yaml.IsAscii])
      (by simp [Yaml.IsSimple.text hascii.function])
  exact .object (by simp [Entries.keys]) (by simp [Yaml.IsAscii])
    (by simp [Yaml.IsSimple.text hascii.name, hfunction, hinput])

end Step

namespace Manifest

/-- A manifest that the checks let through, with all that it is made of. -/
structure IsMade (m : Manifest) : Prop where
  steps : ∀ s ∈ m.steps, s.IsMade
  checked : m.checked = .ok m

structure IsAscii (m : Manifest) : Prop where
  name : m.name.IsAsciiText
  compositeApiVersion : m.compositeApiVersion.IsAsciiText
  compositeKind : m.compositeKind.IsAsciiText
  apiVersion : m.apiVersion.IsAsciiText
  kind : m.kind.IsAsciiText
  steps : ∀ s ∈ m.steps, s.IsAscii

theorem isSound {m : Manifest} (hmade : m.IsMade) (hascii : m.IsAscii) : m.IsSound where
  name := hascii.name.isClosed
  compositeApiVersion := hascii.compositeApiVersion.isClosed
  compositeKind := hascii.compositeKind.isClosed
  apiVersion := hascii.apiVersion.isClosed
  kind := hascii.kind.isClosed
  steps s hs := Step.isSound (hmade.steps s hs) (hascii.steps s hs)
  checked := hmade.checked

theorem isSimple {m : Manifest} (hmade : m.IsMade) (hascii : m.IsAscii) (n : Nat) :
    Yaml.IsSimple (n + 7) m.toValue := by
  have hpipeline : Yaml.IsSimple (n + 5) (.list (m.steps.map Step.toValue)) := by
    refine .list fun x hx => ?_
    obtain ⟨s, hs, rfl⟩ := List.mem_map.mp hx
    exact Step.isSimple (hmade.steps s hs) (hascii.steps s hs) n
  have htype : Yaml.IsSimple (n + 5)
      (.object [(.str "apiVersion", m.compositeApiVersion), (.str "kind", m.compositeKind)]) :=
    .object (by simp [Entries.keys]) (by simp [Yaml.IsAscii])
      (by simp [hascii.compositeApiVersion.isSimple, hascii.compositeKind.isSimple])
  have hmode : Yaml.IsSimple (n + 5) (.str pipelineMode) :=
    .text (by simp [Yaml.IsAscii, pipelineMode])
  have hspec : Yaml.IsSimple (n + 6) (.object m.specEntries) :=
    .object (by simp [Entries.keys, specEntries]) (by simp [specEntries, Yaml.IsAscii])
      (by simp [specEntries, htype, hmode, hpipeline])
  have hmetadata : Yaml.IsSimple (n + 6) (.object [(.str "name", m.name)]) :=
    .object (by simp [Entries.keys]) (by simp [Yaml.IsAscii]) (by simp [hascii.name.isSimple])
  have hentries : m.toValue = .object m.entries := rfl
  rw [hentries]
  exact .object (by simp [Entries.keys, entries]) (by simp [entries, Yaml.IsAscii])
    (by simp [entries, hascii.apiVersion.isSimple, hascii.kind.isSimple, hmetadata, hspec])

/-- A manifest that passed the checks, with any ASCII texts in it, has a text, and the text is read
back as the manifest it was written from. -/
theorem text_round_trip {m : Manifest} (hmade : m.IsMade) (hascii : m.IsAscii) :
    ∃ text, m.encode = .ok text ∧ decode text = .ok m := by
  have hentries : m.toValue = .object m.entries := rfl
  have hsimple := isSimple hmade hascii 0
  rw [hentries] at hsimple
  obtain ⟨text, hencode, hdecode⟩ :=
    Yaml.decode_encode (by simp [entries]) hsimple (by decide)
  refine ⟨text, by rw [encode, hentries, hencode], ?_⟩
  rw [decode, hdecode]
  exact ofValue_toValue (isSound hmade hascii)

/-- An input full of indicators, blanks and texts that look like something else. -/
def awkwardInput : FunctionInput :=
  ⟨⟨" # a: 'b'\n\n\t- \"no\r\n  ", false, [("on", "1e3")]⟩, [("? b", "~")], .str "0x1F", .str ""⟩

def awkward : Manifest :=
  ⟨.str "2001-01-01", .str "null", .str "- x",
    [⟨" run", "%fn", awkwardInput⟩, ⟨"run", "\x7b", awkwardInput⟩], .str "a\tb", .str "\x00"⟩

theorem text_round_trip_awkward :
    awkward.IsMade ∧ awkward.IsAscii ∧
      ∃ text, awkward.encode = .ok text ∧ decode text = .ok awkward := by
  have hannotations : awkwardInput.artifact.annotations.IsDistinct := by
    simp [TextMap.IsDistinct, TextMap.toEntries, Entries.keys, awkwardInput]
  have hvalues : awkwardInput.values.IsDistinct := by
    simp [TextMap.IsDistinct, TextMap.toEntries, Entries.keys, awkwardInput]
  have hinput : awkwardInput.IsMade :=
    ⟨⟨.str awkwardInput.artifact.source, .bool false, awkwardInput.artifact.annotations.toValue,
        hannotations, Artifact.ofParts_self _⟩,
      awkwardInput.values.toValue, .str inlineSource, hvalues, FunctionInput.ofParts_self _⟩
  have hmade : awkward.IsMade := by
    refine ⟨?_, by cbv⟩
    simp only [awkward, List.forall_mem_cons]
    exact ⟨⟨hinput, .str " run", .str "%fn", by cbv⟩, ⟨hinput, .str "run", .str "\x7b", by cbv⟩,
      by simp⟩
  have hasciiInput : awkwardInput.IsAscii :=
    ⟨⟨_, rfl, by simp [Yaml.IsAscii]⟩, ⟨_, rfl, by simp [Yaml.IsAscii]⟩,
      by simp [Yaml.IsAscii, awkwardInput], by simp [TextMap.IsAscii, Yaml.IsAscii, awkwardInput],
      by simp [TextMap.IsAscii, Yaml.IsAscii, awkwardInput]⟩
  have hascii : awkward.IsAscii := by
    refine ⟨⟨_, rfl, by simp [Yaml.IsAscii]⟩, ⟨_, rfl, by simp [Yaml.IsAscii]⟩,
      ⟨_, rfl, by simp [Yaml.IsAscii]⟩, ⟨_, rfl, by simp [Yaml.IsAscii]⟩,
      ⟨_, rfl, by simp [Yaml.IsAscii]⟩, ?_⟩
    simp only [awkward, List.forall_mem_cons]
    exact ⟨⟨by simp [Yaml.IsAscii], by simp [Yaml.IsAscii], hasciiInput⟩,
      ⟨by simp [Yaml.IsAscii], by simp [Yaml.IsAscii], hasciiInput⟩, by simp⟩
  exact ⟨hmade, hascii, text_round_trip hmade hascii⟩

end Manifest

end FunctionPipeline

import FunctionPipeline.Proofs.Document.Identity
import FunctionPipeline.Proofs.Manifest.Refusals
import FunctionPipeline.Proofs.Yaml.GraphFaults
import FunctionPipeline.Proofs.Yaml.NodeFaults
import FunctionPipeline.Proofs.Yaml.TokenFaults

/-!
What comes of reading any text: a mapping or a manifest, or a failure that names a broken rule.
Only a scalar without a value comes out as a fault, and an integer with too many digits where a
failure would tell it.
-/

namespace FunctionPipeline

namespace Yaml

/-- Something in a text has no value: a token that breaks off, or a node of the document. -/
inductive Unreadable (s : List Char) (cause : Fault) : Prop where
  | token {ts : List Token} : tokens? s = some ts → .unreadable cause ∈ ts → Unreadable s cause
  | node {ts : List Token} {root : Node} : tokens? s = some ts →
      Node.ofTokens ts = .ok (some root) → root.Refuses cause → Unreadable s cause

theorem Unreadable.ofScalar {s : List Char} {cause : Fault} (h : Unreadable s cause) :
    cause.OfScalar := by
  cases h with
  | token htokens hmem => exact knownCauses_tokens? htokens cause hmem
  | node _ _ hrefused => exact hrefused.ofScalar

theorem Node.toValue_yields (root : Node) : Yields (fun _ => True) root.Refuses root.toValue := by
  unfold Node.toValue
  split
  next halias => exact Graph.toValue_yields halias
  next => exact Node.treeValue_yields root

/-- Reading a text has no faults but those of what is unreadable in it. -/
theorem load_yields (s : List Char) : Yields (fun _ => True) (Unreadable s) (load s) := by
  unfold load
  split
  · exact Yields.malformed
  next ts htokens =>
    have hread := Node.ofTokens_yields ts
    cases hroot : Node.ofTokens ts with
    | error e =>
        cases e with
        | malformed => exact Yields.malformed
        | fault cause => exact Yields.fault_iff.mpr (.token htokens (hread.fault cause hroot))
    | ok root =>
        cases root with
        | none => exact Yields.ok_iff.mpr trivial
        | some root =>
            apply (Node.toValue_yields root).mono
            · exact fun _ _ => trivial
            · exact fun cause hrefused => .node htokens hroot hrefused

theorem decode_cases (text : String) :
    (∃ document, decode text = .ok document ∧ document.isMapping = true) ∨
      (∃ cause, decode text = .error (.serialization cause)) ∨
      ∃ cause, decode text = .error (.fault cause) ∧ Unreadable text.toList cause := by
  unfold decode
  split
  · exact Or.inr (Or.inl ⟨_, rfl⟩)
  next cause hcause => exact Or.inr (Or.inr ⟨cause, rfl, (load_yields _).fault cause hcause⟩)
  next document _ =>
    split
    next hmapping => exact Or.inl ⟨document, rfl, hmapping⟩
    next => exact Or.inr (Or.inl ⟨_, rfl⟩)

end Yaml

namespace Manifest

/-- The faults that come out of reading a manifest from a text. -/
inductive Escapes (text : String) : Fault → Prop where
  | unreadable {cause : Fault} : cause.OfScalar → Yaml.Unreadable text.toList cause →
      Escapes text cause
  | unshown {document : Value} : Yaml.decode text = .ok document →
      document.hasLongInteger = true → Escapes text .longInteger

/-- Reading a text gives a mapping, reading a manifest from it a manifest. Where it does not, there
is a failure that names the broken rule, unless a scalar has no value or an integer cannot be
told. -/
theorem decode_contained (text : String) :
    ((∃ document, Yaml.decode text = .ok document ∧ document.isMapping = true) ∨
      (∃ cause, Yaml.decode text = .error (.serialization cause)) ∨
      ∃ cause, Yaml.decode text = .error (.fault cause) ∧ cause.OfScalar ∧
        Yaml.Unreadable text.toList cause) ∧
    ((∃ m, decode text = .ok m) ∨
      (∃ cause, decode text = .error (.serialization cause)) ∨
      (∃ cause, decode text = .error (.embed cause)) ∨
      ∃ cause, decode text = .error (.fault cause) ∧ Escapes text cause) := by
  have hbound {failure : Failure} (h : Yaml.decode text = .error failure) :
      decode text = .error failure := by
    unfold decode
    rw [h]
    rfl
  rcases Yaml.decode_cases text with ⟨document, hdocument, hmapping⟩ | ⟨cause, hcause⟩ |
    ⟨cause, hcause, hunreadable⟩
  · refine ⟨Or.inl ⟨document, hdocument, hmapping⟩, ?_⟩
    have hread : decode text = ofValue document := by
      unfold decode
      rw [hdocument]
      rfl
    rw [hread]
    cases hresult : ofValue document with
    | ok m => exact Or.inl ⟨m, rfl⟩
    | error failure =>
        right
        cases isRefusal_of_error hresult with
        | serialization cause => exact Or.inl ⟨cause, rfl⟩
        | embed cause => exact Or.inr (Or.inl ⟨cause, rfl⟩)
        | unshown hlong => exact Or.inr (Or.inr ⟨_, rfl, .unshown hdocument hlong⟩)
  · constructor
    · exact Or.inr (Or.inl ⟨cause, hcause⟩)
    · exact Or.inr (Or.inl ⟨cause, hbound hcause⟩)
  · have hscalar := hunreadable.ofScalar
    constructor
    · exact Or.inr (Or.inr ⟨cause, hcause, hscalar, hunreadable⟩)
    · exact Or.inr (Or.inr (Or.inr ⟨cause, hbound hcause, .unreadable hscalar hunreadable⟩))

/-- A day that does not exist comes out as a fault. -/
theorem decode_escapes_day :
    ∃ message, Yaml.decode "day: 2001-02-30\n" = .error (.fault (.badValue message)) ∧
      decode "day: 2001-02-30\n" = .error (.fault (.badValue message)) := by
  have hdecoded : Yaml.decode "day: 2001-02-30\n" =
      .error (.fault (.badValue "day is out of range")) :=
    error_of_errorOf? (by decide +kernel)
  refine ⟨_, hdecoded, ?_⟩
  unfold decode
  rw [hdecoded]
  rfl

end Manifest

end FunctionPipeline

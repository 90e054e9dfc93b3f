import FunctionPipeline.Proofs.Json.Reading
import FunctionPipeline.Proofs.SourceMap.Lookup
import FunctionPipeline.SourceMap.Inline

/-!
Source maps inside a text. What stands in the last comment may be anything; it is usable if it holds
no data, or data of the shape that is looked into. A usable comment holds no map or a sound one, and
so every position is answered with the place that covers it, or with none.
-/

namespace FunctionPipeline

/-- The parts of a tree whose integers can be shown are values of which the same is true. -/
theorem Value.IsShown.elements {v : Value} (h : v.IsShown) {parts : List Value}
    (hparts : v.elements = .ok parts) : ∀ x ∈ parts, x.hasLongInteger = false := by
  have hkeys {es : Entries} (hes : entryLongInteger es = false) :
      ∀ x ∈ Entries.keys es, x.hasLongInteger = false := by
    intro x hx
    obtain ⟨e, he, rfl⟩ := List.mem_map.mp hx
    exact Entries.IsShort.key hes he
  obtain ⟨hreference, hlong⟩ := h
  cases v with
  | str s =>
      cases hparts
      intro x hx
      obtain ⟨c, -, rfl⟩ := List.mem_map.mp hx
      rfl
  | bytes octets =>
      cases hparts
      intro x hx
      obtain ⟨b, -, rfl⟩ := List.mem_map.mp hx
      have hthree : 10 ^ 3 ≤ 10 ^ digitLimit := Nat.pow_le_pow_right (by decide) (by decide)
      have hoctet : b.toNat < 10 ^ 3 := Nat.lt_trans b.toNat_lt (by decide)
      exact Json.hasMoreDigits_of_lt (Nat.lt_of_lt_of_le hoctet hthree)
  | set members =>
      cases hparts
      exact areShort_iff.mp hlong
  | sequence access items =>
      cases hparts
      have hitems : (Value.sequence access items).items?.getD [] = items := by
        simp only [items?, hreference, Bool.false_eq_true, if_false, Option.getD_some]
      rw [hitems]
      exact areShort_iff.mp hlong
  | mapping access entries =>
      cases hparts
      exact hkeys hlong
  | _ => cases hparts

namespace SourceMap

/-- Members of a source map: sources that can be told one by one, a root that is a text if it counts
at all, and a text of mappings that count sources from 0 on. What is absent is empty. -/
structure AreUsable (members : Entries) : Prop where
  sources : ∃ sources, ((Entries.field? members "sources").getD (.list [])).elements = .ok sources
  root : ((Entries.field? members "sourceRoot").getD .null).isTrue = true →
    ∃ root, (Entries.field? members "sourceRoot").getD .null = .str root
  mappings : ∃ text, (Entries.field? members "mappings").getD (.str "") = .str text ∧
    ∀ lines, Mappings.decode text.toList = .ok lines → ∀ line ∈ lines, ∀ s ∈ line, ∀ origin,
      s.origin = some origin → 0 ≤ origin.source

/-- Data with such members is a sound map, unless its mappings cannot be read. -/
theorem ofData_of_usable (access : Access) {members : Entries}
    (hshown : Entries.IsShown members) (h : AreUsable members) :
    (∃ m, ofData (.mapping access members) = .ok m ∧ m.IsSound) ∨
      ∃ cause, ofData (.mapping access members) = .error (.mappings cause) := by
  obtain ⟨sources, hsources⟩ := h.sources
  obtain ⟨text, hmappings, hcounts⟩ := h.mappings
  have hlookUp (name : String) :
      (Value.mapping access members).lookUp name = .ok (Entries.field? members name) := by
    simp only [Value.lookUp, Value.entries?, Value.hasReference, hshown.1, Bool.false_eq_true,
      if_false]
  have hnames : ∀ name ∈ sources, name.hasLongInteger = false := by
    refine Value.IsShown.elements ?_ hsources
    cases hfield : Entries.field? members "sources" with
    | none => exact ⟨rfl, rfl⟩
    | some v => exact hshown.field? hfield
  simp only [ofData, hlookUp, hsources, hmappings, bind, Except.bind, pure, Except.pure]
  cases hread : Mappings.decode text.toList with
  | error cause =>
      cases cause with
      | segment cause => exact Or.inr ⟨cause, rfl⟩
      | noColumn => exact absurd hread (Mappings.lines_ne_noColumn _ _)
  | ok lines =>
      refine Or.inl ⟨_, rfl, ?_, hnames, Mappings.sorted_of_lines hread, hcounts lines hread⟩
      simp only
      split
      next htrue => exact h.root htrue
      next => exact ⟨"", rfl⟩

/-- A text whose last comment, if there is one, holds no data, null, or the members of a map. -/
inductive HasUsableMap (code : String) : Prop
  | none (hdata : inlineData code = .ok none)
  | null (hdata : inlineData code = .ok (some .null))
  | members {access : Access} {members : Entries}
      (hdata : inlineData code = .ok (some (.mapping access members)))
      (husable : AreUsable members)

theorem isShown_inlineData {code : String} {data : Value} (h : inlineData code = .ok (some data)) :
    data.IsShown := by
  unfold inlineData at h
  split at h
  next => cases h
  next =>
    split at h
    next hread =>
      cases h
      exact Json.isShown_of_read hread
    next => cases h
    next => cases h

/-- A usable text holds no map or a sound one. -/
theorem ofCode_of_usable {code : String} (h : HasUsableMap code) :
    ofCode code = .ok none ∨ ∃ m, ofCode code = .ok (some m) ∧ m.IsSound := by
  cases h with
  | none hdata =>
      left
      rw [ofCode, hdata]
      rfl
  | null hdata =>
      left
      rw [ofCode, hdata]
      rfl
  | @members access members hdata husable =>
      have hshown := Entries.isShown_mapping.mp (isShown_inlineData hdata)
      rcases ofData_of_usable access hshown husable with ⟨m, hmap, hsound⟩ | ⟨cause, hmap⟩
      · right
        refine ⟨m, ?_, hsound⟩
        rw [ofCode, hdata]
        simp only [bind, Except.bind, hmap]
        rfl
      · left
        rw [ofCode, hdata]
        simp only [bind, Except.bind, hmap]
        rfl

end SourceMap

end FunctionPipeline

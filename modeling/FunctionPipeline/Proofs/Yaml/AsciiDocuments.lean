import FunctionPipeline.Proofs.Document.JsonValues
import FunctionPipeline.Proofs.Document.LongIntegers
import FunctionPipeline.Proofs.Yaml.NodeTokens
import FunctionPipeline.Proofs.Yaml.Words

/-!
Documents of ASCII texts and booleans. Whatever ASCII a text holds, it is kept: no next-line control
is in it, no key on one line is too long, and where nesting leaves room on the line lines fold well.
So writing does not refuse such a document, and decoding gives it back.
-/

namespace FunctionPipeline.Yaml

def IsAscii (s : List Char) : Prop := ∀ c ∈ s, c.toNat < 128

/-- Documents of ASCII texts and booleans, nested to a depth at most, in which no key is there
twice. -/
inductive IsSimple : Nat → Value → Prop where
  | text {n : Nat} {s : String} (hs : IsAscii s.toList) : IsSimple n (.str s)
  | truth {n : Nat} (b : Bool) : IsSimple n (.bool b)
  | list {n : Nat} {items : List Value} (hitems : ∀ x ∈ items, IsSimple n x) :
      IsSimple (n + 1) (.list items)
  | object {n : Nat} {entries : Entries} (hkeys : (Entries.keys entries).Nodup)
      (htexts : ∀ e ∈ entries, ∃ s, e.1 = .str s ∧ IsAscii s.toList)
      (hentries : ∀ e ∈ entries, IsSimple n e.2) : IsSimple (n + 1) (.object entries)

theorem IsAscii.isKept {s : List Char} (hs : IsAscii s) (place : Place) {indent : Nat}
    (hindent : indent < bestWidth) : isKept place indent s = true := by
  have hnext : '\x85' ∉ s := fun hmem => absurd (hs _ hmem) (by decide)
  exact isKept_iff.mpr ⟨fun _ => hnext, fun _ _ => Or.inl hindent⟩

private theorem length_flatMap_le {f : Char → List Char} {s : List Char} {n : Nat}
    (h : ∀ c ∈ s, (f c).length ≤ n) : (s.flatMap f).length ≤ n * s.length := by
  induction s with
  | nil => simp
  | cons c s ih =>
      have hrest := ih fun d hd => h d (by simp [hd])
      have hc := h c (by simp)
      rw [List.flatMap_cons, List.length_append, List.length_cons, Nat.mul_succ]
      omega

/-- A key of ASCII on one line takes four characters for each of its own, and quotes. -/
private theorem IsAscii.length_simpleKey {s : List Char} (hs : IsAscii s) :
    (writeScalar .simpleKey 0 0 s).length ≤ 4 * s.length + 2 := by
  have hescapes : (List.range 128).all (fun n => (DoubleQuoted.escape (Char.ofNat n)).length ≤ 4) =
      true := by decide +kernel
  unfold writeScalar
  cases hstyle : chooseStyle .simpleKey s with
  | plain =>
      change (Plain.write false 0 0 s).length ≤ _
      rw [Plain.write_line]
      omega
  | singleQuoted =>
      have hline := @SingleQuoted.writeFrom_line 0 s (printable_of_singleQuoted hstyle) 1 none
        (fun b hb => by cases hb)
      have hle := length_flatMap_le (s := s) (n := 4)
        (f := fun c => if c = '\'' then ['\'', '\''] else [c])
        (fun c _ => by split <;> simp)
      simp only [SingleQuoted.write, Nat.zero_add, reduceCtorEq, decide_false, hline,
        List.length_append, List.length_cons, List.length_nil]
      omega
  | doubleQuoted =>
      have hle := length_flatMap_le (s := s) (n := 4)
        (f := fun c => if DoubleQuoted.isBare c then [c] else DoubleQuoted.escape c)
        (fun c hc => by
          have hescape := List.all_eq_true.mp hescapes c.toNat (List.mem_range.mpr (hs c hc))
          rw [Char.ofNat_toNat, decide_eq_true_eq] at hescape
          split
          · simp
          · exact hescape)
      simp only [DoubleQuoted.write, Nat.zero_add, reduceCtorEq, decide_false,
        DoubleQuoted.writeFrom_line, List.length_append, List.length_cons, List.length_nil]
      omega
  | literal => cases (of_literal hstyle).1

theorem IsAscii.isKeptKey {s : List Char} (hs : IsAscii s) {indent : Nat}
    (hindent : indent < bestWidth) : isKeptKey indent s = true := by
  unfold Yaml.isKeptKey
  split
  · next hsimple =>
      have hlength := hs.length_simpleKey
      simp only [isSimpleKey, Bool.and_eq_true, decide_eq_true_eq] at hsimple
      have hless : s.length < 123 := hsimple.1.1
      rw [decide_eq_true_eq]
      omega
  · exact hs.isKept .block hindent

/-- The texts of a simple document are kept where its depth leaves room on the line. -/
theorem IsSimple.isKeptDocument {depth : Nat} {v : Value} (h : IsSimple depth v) (below : Bool)
    {indent : Nat} (hindent : indent + 2 * depth < bestWidth) :
    IsKeptDocument below indent v := by
  induction h generalizing below indent with
  | text hs => exact .text (hs.isKept .block (by omega))
  | truth b => exact .word (isWord_truth b)
  | list _ ih => exact .list fun x hx => ih x hx false (by split <;> omega)
  | object hkeys htexts _ ih =>
      refine .object hkeys (fun e he => ?_) fun e he => ih e he _ (by omega)
      obtain ⟨s, hkey, hs⟩ := htexts e he
      exact ⟨s, hkey, hs.isKeptKey (by omega)⟩

theorem IsSimple.isTree {depth : Nat} {v : Value} (h : IsSimple depth v) : v.IsTree := by
  induction h with
  | text => exact ⟨rfl, rfl⟩
  | truth => exact ⟨rfl, rfl⟩
  | list _ ih => exact Value.isTree_list.mpr ih
  | object _ _ _ ih => exact Entries.isTree_object.mpr (Entries.isTree_iff.mpr ih)

theorem IsSimple.isJson {depth : Nat} {v : Value} (h : IsSimple depth v) : v.isJson = true := by
  induction h with
  | text => rfl
  | truth => rfl
  | list _ ih => exact Value.allJson_iff.mpr ih
  | object _ htexts _ ih =>
      refine Entries.isJson_iff.mpr fun e he => ⟨?_, ih e he⟩
      obtain ⟨s, hkey, -⟩ := htexts e he
      exact ⟨s, hkey⟩

/-- Simple documents are encodable. -/
theorem IsSimple.checkEncodable {depth : Nat} {v : Value} (h : IsSimple depth v) (path : String) :
    v.checkEncodable path = .ok () := (Value.checkEncodable_eq_ok_iff path v).mpr h.isJson

theorem IsSimple.hasLongInteger {depth : Nat} {v : Value} (h : IsSimple depth v) :
    v.hasLongInteger = false := by
  induction h with
  | text => rfl
  | truth => rfl
  | list _ ih => exact Value.areShort_iff.mpr ih
  | object _ htexts _ ih =>
      refine Entries.isShort_iff.mpr fun e he => ⟨?_, ih e he⟩
      obtain ⟨s, hkey, -⟩ := htexts e he
      rw [hkey]
      rfl

/-- Encoding and decoding gives a simple mapping back. -/
theorem decode_encode {depth : Nat} {entries : Entries} (hnonempty : entries ≠ [])
    (h : IsSimple (depth + 1) (.object entries)) (hwidth : 2 * depth + 2 < bestWidth) :
    ∃ text, encode (.object entries) = .ok text ∧ decode text = .ok (.object entries) := by
  refine ⟨String.ofList (write (.object entries)), ?_, ?_⟩
  · rw [encode, h.checkEncodable]
    simp only [h.hasLongInteger, Bool.false_eq_true, if_false, h.isTree.2]
  · rw [decode, String.toList_ofList, load_write hnonempty (h.isKeptDocument false (by omega))]
    rfl

end FunctionPipeline.Yaml

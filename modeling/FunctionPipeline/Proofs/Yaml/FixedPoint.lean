import FunctionPipeline.Proofs.Document.LongIntegers
import FunctionPipeline.Proofs.Document.RepeatedMerges
import FunctionPipeline.Proofs.Yaml.NodeTokens
import FunctionPipeline.Proofs.Yaml.Words

/-!
Which documents are written, read and written again to the same text. Every word is kept, so of a
document that can be written only its texts and keys count: a document whose texts are kept where
they stand comes back as its writable copy.
-/

namespace FunctionPipeline

namespace Value

mutual

/-- Access does not count for what can be written. -/
theorem checkEncodable_withAccess (a : Access) (path : String) :
    ∀ v : Value, checkEncodable path (withAccess a v) = checkEncodable path v
  | .sequence _ items => by
      simp only [withAccess, checkEncodable, checkItems_withAccessAll a path 0 items]
  | .mapping _ entries => by
      simp only [withAccess, checkEncodable, checkEntries_withAccessEntries a path entries]
  | .null | .bool _ | .int _ | .float _ | .str _ | .bytes _ | .date _ | .moment _ | .foreign _
  | .set _ | .enclosing _ => rfl

theorem checkItems_withAccessAll (a : Access) (path : String) (index : Nat) :
    ∀ items : List Value, checkItems path index (withAccessAll a items) =
      checkItems path index items
  | [] => rfl
  | x :: xs => by
      simp only [withAccessAll, checkItems, checkEncodable_withAccess a _ x,
        checkItems_withAccessAll a path (index + 1) xs]

theorem checkEntries_withAccessEntries (a : Access) (path : String) :
    ∀ es : List (Value × Value), checkEntries path (withAccessEntries a es) =
      checkEntries path es
  | [] => rfl
  | (k, v) :: es => by
      cases k with
      | str name =>
          simp only [withAccessEntries, checkEntries, checkEncodable_withAccess a _ v,
            checkEntries_withAccessEntries a path es]
      | _ => rfl

end

theorem checkItems_cons {path : String} {index : Nat} {x : Value} {xs : List Value}
    (h : checkItems path index (x :: xs) = .ok ()) :
    (∃ path, checkEncodable path x = .ok ()) ∧ checkItems path (index + 1) xs = .ok () := by
  rw [checkItems] at h
  generalize hfirst : checkEncodable _ x = first at h
  cases first with
  | error e => cases h
  | ok => exact ⟨⟨_, hfirst⟩, h⟩

theorem checkEntries_cons {path : String} {k v : Value} {es : Entries}
    (h : checkEntries path ((k, v) :: es) = .ok ()) :
    (∃ name, k = .str name) ∧ (∃ path, checkEncodable path v = .ok ()) ∧
      checkEntries path es = .ok () := by
  cases k with
  | str name =>
      rw [checkEntries] at h
      generalize hfirst : checkEncodable _ v = first at h
      cases first with
      | error e => cases h
      | ok => exact ⟨⟨name, rfl⟩, ⟨_, hfirst⟩, h⟩
  | _ => cases h

end Value

namespace Yaml

mutual

/-- Whether the texts and keys of a document are kept where they stand: below a key on one line or
not, at the indentation of the lines that go on. -/
def keepsTexts (below : Bool) (indent : Nat) : Value → Bool
  | .str s => isKept .block indent s.toList
  | .sequence _ items => keepsItems (if below then indent else indent + 2) items
  | .mapping _ entries => keepsEntries (indent + 2) entries
  | _ => true

def keepsItems (indent : Nat) : List Value → Bool
  | [] => true
  | x :: xs => keepsTexts false indent x && keepsItems indent xs

def keepsEntries (indent : Nat) : List (Value × Value) → Bool
  | [] => true
  | (k, v) :: es =>
      isKeptKey indent (keyChars k) && keepsTexts (isSimpleKey (keyChars k)) indent v &&
        keepsEntries indent es

end

theorem keys_withAccessEntries (a : Access) (es : Entries) :
    Entries.keys (Value.withAccessEntries a es) = Entries.keys es := by
  induction es with
  | nil => rfl
  | cons e es ih => exact congrArg (e.1 :: ·) ih

mutual

/-- The writable copy of a value that can be written is a document whose texts are kept, if they
are. -/
theorem isKeptDocument_thaw : ∀ (v : Value) {path : String} {below : Bool} {indent : Nat},
    v.checkEncodable path = .ok () → v.hasLongInteger = false → v.isWellKeyed = true →
    keepsTexts below indent v = true → IsKeptDocument below indent v.thaw
  | .null, _, _, _, _, _, _, _ => .word isWord_null
  | .bool b, _, _, _, _, _, _, _ => .word (isWord_truth b)
  | .int i, _, _, _, _, hlong, _, _ => .word (isWord_int hlong)
  | .float x, _, _, _, hencodable, _, _, _ => by
      cases x with
      | finite negative rank => exact .word (isWord_float negative rank)
      | _ => cases hencodable
  | .str s, _, _, _, _, _, _, hkept => .text hkept
  | .sequence access items, _, _, _, hencodable, hlong, hkeyed, hkept =>
      .list (areKeptDocuments_thaw items hencodable hlong hkeyed hkept)
  | .mapping access entries, _, _, indent, hencodable, hlong, hkeyed, hkept => by
      obtain ⟨hkeys, htexts, hentries⟩ :=
        areKeptEntries_thaw entries hencodable hlong hkeyed hkept
      exact .object hkeys htexts hentries
  | .bytes _, _, _, _, hencodable, _, _, _ => by cases hencodable
  | .date _, _, _, _, hencodable, _, _, _ => by cases hencodable
  | .moment _, _, _, _, hencodable, _, _, _ => by cases hencodable
  | .foreign _, _, _, _, hencodable, _, _, _ => by cases hencodable
  | .set _, _, _, _, hencodable, _, _, _ => by cases hencodable
  | .enclosing _, _, _, _, hencodable, _, _, _ => by cases hencodable

theorem areKeptDocuments_thaw : ∀ (items : List Value) {path : String} {index indent : Nat},
    Value.checkItems path index items = .ok () → Value.anyLongInteger items = false →
    Value.allWellKeyed items = true → keepsItems indent items = true →
    ∀ x ∈ Value.withAccessAll .writable items, IsKeptDocument false indent x
  | [], _, _, _, _, _, _, _ => fun _ hx => by cases hx
  | x :: xs, _, _, _, hencodable, hlong, hkeyed, hkept => by
      obtain ⟨⟨_, hx⟩, hxs⟩ := Value.checkItems_cons hencodable
      simp only [Value.anyLongInteger, Bool.or_eq_false_iff] at hlong
      simp only [Value.allWellKeyed, Bool.and_eq_true] at hkeyed
      simp only [keepsItems, Bool.and_eq_true] at hkept
      intro y hy
      rcases List.mem_cons.mp hy with rfl | hmem
      · exact isKeptDocument_thaw x hx hlong.1 hkeyed.1 hkept.1
      · exact areKeptDocuments_thaw xs hxs hlong.2 hkeyed.2 hkept.2 y hmem

theorem areKeptEntries_thaw : ∀ (es : Entries) {path : String} {indent : Nat},
    Value.checkEntries path es = .ok () → Value.entryLongInteger es = false →
    Value.entriesWellKeyed es = true → keepsEntries indent es = true →
    (Entries.keys (Value.withAccessEntries .writable es)).Nodup ∧
      (∀ e ∈ Value.withAccessEntries .writable es, ∃ s, e.1 = .str s ∧
        isKeptKey indent s.toList = true) ∧
      ∀ e ∈ Value.withAccessEntries .writable es,
        IsKeptDocument (isSimpleKey (keyChars e.1)) indent e.2
  | [], _, _, _, _, _, _ => ⟨List.nodup_nil, fun _ he => (by cases he), fun _ he => by cases he⟩
  | (k, v) :: es, _, _, hencodable, hlong, hkeyed, hkept => by
      obtain ⟨⟨name, rfl⟩, ⟨_, hv⟩, hes⟩ := Value.checkEntries_cons hencodable
      obtain ⟨⟨-, hnew⟩, hvkeyed, heskeyed⟩ := Entries.isWellKeyed_cons.mp hkeyed
      simp only [Value.entryLongInteger, Bool.or_eq_false_iff] at hlong
      simp only [keepsEntries, Bool.and_eq_true] at hkept
      obtain ⟨hkeys, htexts, hentries⟩ :=
        areKeptEntries_thaw es hes hlong.2 heskeyed hkept.2
      have hdocument : IsKeptDocument (isSimpleKey name.toList) _ v.thaw :=
        isKeptDocument_thaw v hv hlong.1.2 hvkeyed hkept.1.2
      have hnotin : Value.str name ∉ Entries.keys (Value.withAccessEntries .writable es) := by
        rw [keys_withAccessEntries]
        intro hmem
        obtain ⟨e, he, hkey⟩ := List.mem_map.mp hmem
        have hequal := hnew e he
        rw [hkey, Value.str_equals_self] at hequal
        cases hequal
      refine ⟨List.nodup_cons.mpr ⟨hnotin, hkeys⟩, ?_, ?_⟩
      · intro e he
        rcases List.mem_cons.mp he with rfl | hmem
        · exact ⟨name, rfl, hkept.1.1⟩
        · exact htexts e hmem
      · intro e he
        rcases List.mem_cons.mp he with rfl | hmem
        · exact hdocument
        · exact hentries e hmem

end

private theorem encode_eq {document : Value}
    (hencodable : document.checkEncodable Value.rootPath = .ok ())
    (hlong : document.hasLongInteger = false) :
    encode document = .ok (String.ofList (write document.thaw)) := by
  simp only [encode, hencodable, hlong, Bool.false_eq_true, if_false]

/-- A mapping that can be written comes back from its text as its writable copy, and is written as
the same text again, if its texts and keys are kept. -/
theorem encode_fixed_point {document : Value} (hroot : document.isMapping = true)
    (hencodable : document.checkEncodable Value.rootPath = .ok ())
    (hlong : document.hasLongInteger = false) (hkeyed : document.isWellKeyed = true)
    (hkept : keepsTexts false 0 document = true) :
    ∃ text, encode document = .ok text ∧ decode text = .ok document.thaw ∧
      encode document.thaw = .ok text := by
  refine ⟨String.ofList (write document.thaw), encode_eq hencodable hlong, ?_, ?_⟩
  · have hload : load (write document.thaw) = .ok document.thaw := by
      cases document with
      | mapping access entries =>
          cases entries with
          | nil => exact load_write_empty
          | cons e es =>
              exact load_write (List.cons_ne_nil _ _)
                (isKeptDocument_thaw (.mapping access (e :: es)) hencodable hlong hkeyed hkept)
      | _ => cases hroot
    have hmapping : document.thaw.isMapping = true := by
      cases document with
      | mapping access entries => rfl
      | _ => cases hroot
    simp only [decode, String.toList_ofList, hload, hmapping, if_true]
  · have hcopy : document.thaw.checkEncodable Value.rootPath = .ok () := by
      rw [Value.thaw, Value.checkEncodable_withAccess, hencodable]
    have hshort : document.thaw.hasLongInteger = false := by
      rw [Value.thaw, Value.hasLongInteger_withAccess, hlong]
    rw [encode_eq hcopy hshort, Value.thaw, Value.thaw, Value.withAccess_withAccess]

/-- Texts of several lines and scripts, a number with a fraction, and containers in containers. -/
theorem encode_fixed_point_nested :
    ∃ text, encode (.object [(.str "größe", .float (.finite false ⟨0x3FB999999999999A, by decide⟩)),
        (.str "lines", .tuple [.str "one\ntwo\n", .int (-7), .null, .object []])]) = .ok text ∧
      decode text = .ok (.object [
        (.str "größe", .float (.finite false ⟨0x3FB999999999999A, by decide⟩)),
        (.str "lines", .list [.str "one\ntwo\n", .int (-7), .null, .object []])]) ∧
      encode (.object [(.str "größe", .float (.finite false ⟨0x3FB999999999999A, by decide⟩)),
        (.str "lines", .list [.str "one\ntwo\n", .int (-7), .null, .object []])]) = .ok text :=
  @encode_fixed_point (.object [
    (.str "größe", .float (.finite false ⟨0x3FB999999999999A, by decide⟩)),
    (.str "lines", .tuple [.str "one\ntwo\n", .int (-7), .null, .object []])])
    rfl rfl (by decide +kernel) (by decide +kernel) (by decide +kernel)

/-- A text that is not kept: the next-line control in single quotes is read as a space. -/
theorem encode_not_fixed_point :
    (Value.object [(.str "k", .str "\x85")]).checkEncodable Value.rootPath = .ok () ∧
      encode (.object [(.str "k", .str "\x85")]) = .ok "k: '\x85  '\n" ∧
      decode "k: '\x85  '\n" = .ok (.object [(.str "k", .str " ")]) ∧
      encode (.object [(.str "k", .str " ")]) = .ok "k: ' '\n" ∧
      "k: ' '\n" ≠ "k: '\x85  '\n" :=
  ⟨rfl, rfl, rfl, rfl, by decide⟩

end Yaml

end FunctionPipeline

import FunctionPipeline.Text.Pieces
import Mathlib.Data.List.DropRight
import Mathlib.Data.List.TakeDrop
import Mathlib.Data.List.TakeWhile

/-!
Where words and white space end in a text: what stands in front of the character that stops a run,
the rest of a text behind a word, and a text without the white space at its end.
-/

namespace FunctionPipeline

/-- What stands in front of what the first character of a text decides. -/
theorem takeWhile_append_of_head {p : Char → Bool} {s t : List Char} (hs : ∀ c ∈ s, p c = true)
    (ht : (t.head?.map p).getD false = false) : (s ++ t).takeWhile p = s := by
  rw [List.takeWhile_append_of_pos hs]
  cases t with
  | nil => rw [List.takeWhile_nil, List.append_nil]
  | cons c t => rw [List.takeWhile_cons_of_neg (by simpa using ht), List.append_nil]

theorem afterWord?_eq_some_iff {word : String} {s rest : List Char} :
    afterWord? word s = some rest ↔ s = word.toList ++ rest := by
  unfold afterWord?
  rw [← String.length_toList]
  constructor
  · intro h
    split at h
    next hprefix =>
      obtain ⟨more, rfl⟩ := List.isPrefixOf_iff_prefix.mp hprefix
      rw [List.drop_left] at h
      rw [Option.some.inj h]
    next => cases h
  · rintro rfl
    rw [if_pos (List.isPrefixOf_iff_prefix.mpr (List.prefix_append _ _)), List.drop_left]

@[simp] theorem afterWord?_append (word : String) (rest : List Char) :
    afterWord? word (word.toList ++ rest) = some rest :=
  afterWord?_eq_some_iff.mpr rfl

/-- A word that a text starts with stands in front of a character that is none of the word's. -/
theorem exists_of_afterWord? {word : String} {s t rest : List Char}
    (ht : ∀ c ∈ t.head?, c ∉ word.toList) (h : afterWord? word (s ++ t) = some rest) :
    ∃ more, s = word.toList ++ more ∧ rest = more ++ t := by
  have hsplit := afterWord?_eq_some_iff.mp h
  rcases List.append_eq_append_iff.mp hsplit with ⟨more, hword, hrest⟩ | ⟨more, hs, hrest⟩
  · cases more with
    | nil => exact ⟨[], by simpa using hword.symm, by simpa using hrest.symm⟩
    | cons c more =>
        have hc : c ∉ word.toList := ht c (by simp [hrest])
        exact absurd (by simp [hword]) hc
  · exact ⟨more, hs, hrest⟩

/-- A text that starts with a word starts with no word that has another first character. -/
theorem afterWord?_append_eq_none {word other : String} {s : List Char}
    (hother : other.toList ≠ []) (hword : word.toList ≠ [])
    (h : word.toList.head? ≠ other.toList.head?) : afterWord? word (other.toList ++ s) = none := by
  rw [← Option.not_isSome_iff_eq_none, Option.isSome_iff_exists]
  rintro ⟨rest, hrest⟩
  have hsplit := congrArg List.head? (afterWord?_eq_some_iff.mp hrest)
  rw [List.head?_append_of_ne_nil _ hother, List.head?_append_of_ne_nil _ hword] at hsplit
  exact h hsplit.symm

/-- White space at the end, behind a word that ends with none, is all that is cut off. -/
theorem rdropWhile_append_blanks {s blanks : List Char} {c : Char}
    (hblanks : ∀ b ∈ blanks, isBlank b = true) (hc : isBlank c = false) :
    (s ++ [c] ++ blanks).rdropWhile isBlank = s ++ [c] := by
  rw [List.rdropWhile, List.reverse_append,
    List.dropWhile_append_of_pos (by simpa using hblanks), ← List.rdropWhile]
  exact List.rdropWhile_concat_neg isBlank s c (by simp [hc])

end FunctionPipeline

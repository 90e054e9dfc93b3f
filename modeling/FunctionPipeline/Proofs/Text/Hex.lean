import FunctionPipeline.Text.Hex

/-!
Hexadecimal digits of a fixed count are read back as the number they were written for, in either
case of their letters.
-/

namespace FunctionPipeline

theorem length_hexDigits {width n : Nat} (hwidth : 0 < width) (h : n < Nat.pow 16 width) :
    (hexDigits width n).length = width := by
  have hle := (Nat.length_toDigits_le_iff (b := 16) (by decide) hwidth).mpr h
  simp only [hexDigits, List.length_append, List.length_replicate]
  omega

private theorem mem_toDigits {n : Nat} {c : Char} (h : c ∈ Nat.toDigits 16 n) :
    ∃ d : Fin 16, c = d.val.digitChar := by
  induction n using Nat.strongRecOn with
  | ind n ih =>
    rw [Nat.toDigits_eq_if (by decide)] at h
    split at h
    · next hless => exact ⟨⟨n, hless⟩, List.mem_singleton.mp h⟩
    · next hless =>
        rcases List.mem_append.mp h with hmem | hmem
        · exact ih (n / 16) (by omega) hmem
        · exact ⟨⟨n % 16, Nat.mod_lt n (by decide)⟩, List.mem_singleton.mp hmem⟩

theorem mem_hexDigits {width n : Nat} {c : Char} (h : c ∈ hexDigits width n) :
    ∃ d : Fin 16, c = d.val.digitChar := by
  rcases List.mem_append.mp h with hmem | hmem
  · exact ⟨0, List.eq_of_mem_replicate hmem⟩
  · exact mem_toDigits hmem

/-- Reading is from left to right, so a number is read with its last digit apart. -/
private theorem hexNumber?_concat {digits : List Char} {c : Char} {n d : Nat}
    (hdigits : hexNumber? digits = some n) (hc : hexValue? c = some d) :
    hexNumber? (digits ++ [c]) = some (n * 16 + d) := by
  unfold hexNumber? at hdigits ⊢
  rw [List.foldl_append, hdigits]
  simp [hc]

section Letters

/- Letters may be put in another case, as long as every digit keeps its value. -/
variable {f : Char → Char} (hf : ∀ m : Fin 16, hexValue? (f m.val.digitChar) = some m.val)

include hf

private theorem hexNumber?_toDigits (n : Nat) :
    hexNumber? ((Nat.toDigits 16 n).map f) = some n := by
  have hvalue {m : Nat} (h : m < 16) : hexValue? (f m.digitChar) = some m := hf ⟨m, h⟩
  induction n using Nat.strongRecOn with
  | ind n ih =>
    rw [Nat.toDigits_eq_if (by decide)]
    split
    · next h => simp [hexNumber?, hvalue h]
    · next h =>
        have hlast := hvalue (Nat.mod_lt n (show 0 < 16 by decide))
        rw [List.map_append, List.map_singleton, hexNumber?_concat (ih (n / 16) (by omega)) hlast]
        congr 1
        omega

private theorem hexNumber?_zeros (count : Nat) (digits : List Char) :
    hexNumber? (List.replicate count (f '0') ++ digits) = hexNumber? digits := by
  have hzero : hexValue? (f '0') = some 0 := hf 0
  induction count with
  | zero => rfl
  | succ count ih =>
      rw [← ih, List.replicate_succ, List.cons_append]
      simp [hexNumber?, hzero]

private theorem hexNumber?_map (width n : Nat) :
    hexNumber? ((hexDigits width n).map f) = some n := by
  rw [hexDigits, List.map_append, List.map_replicate, hexNumber?_zeros hf, hexNumber?_toDigits hf]

end Letters

theorem hexNumber?_hexDigits (width n : Nat) :
    hexNumber? ((hexDigits width n).map Char.toUpper) = some n :=
  hexNumber?_map (by decide) width n

theorem hexNumber?_lower (width n : Nat) : hexNumber? (hexDigits width n) = some n := by
  have h := hexNumber?_map (f := id) (by decide) width n
  rwa [List.map_id] at h

end FunctionPipeline

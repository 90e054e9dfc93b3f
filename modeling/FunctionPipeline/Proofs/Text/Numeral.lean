import FunctionPipeline.Decimal.Length
import FunctionPipeline.Text.Numeral
import Mathlib.Data.List.TakeDrop

/-!
Numerals of ASCII digits are read for what positional notation makes of them: integers with maybe a
minus sign, and decimal numbers with digits in front of a point and maybe an exponent.
-/

namespace FunctionPipeline

def AreDigits (s : List Char) : Prop := ∀ c ∈ s, c.isDigit = true

theorem AreDigits.append {s t : List Char} (hs : AreDigits s) (ht : AreDigits t) :
    AreDigits (s ++ t) := by
  intro c hc
  exact (List.mem_append.mp hc).elim (hs c) (ht c)

theorem areDigits_zeros (count : Nat) : AreDigits (List.replicate count '0') := by
  intro c hc
  rw [List.eq_of_mem_replicate hc]
  decide

theorem areDigits_toDigits (n : Nat) : AreDigits (Nat.toDigits 10 n) :=
  fun _ hc => Nat.isDigit_of_mem_toDigits (by decide) (by decide) hc

theorem exists_toDigits {n : Nat} (h : n ≠ 0) :
    ∃ d rest, Nat.toDigits 10 n = d :: rest ∧ d ≠ '0' := by
  have hchar : ∀ m : Fin 10, m.val ≠ 0 → m.val.digitChar ≠ '0' := by decide
  induction n using Nat.strongRecOn with
  | ind n ih =>
    rw [Nat.toDigits_eq_if (by decide)]
    split
    · next hless => exact ⟨_, [], rfl, hchar ⟨n, hless⟩ h⟩
    · next hless =>
        obtain ⟨d, rest, hdigits, hd⟩ := ih (n / 10) (by omega) (by omega)
        exact ⟨d, rest ++ [(n % 10).digitChar], by rw [hdigits]; rfl, hd⟩

theorem length_toDigits_le {count n : Nat} (hcount : 0 < count)
    (h : hasMoreDigits count n = false) : (Nat.toDigits 10 n).length ≤ count := by
  rw [← Bool.not_eq_true, hasMoreDigits_iff, Nat.not_le] at h
  exact (Nat.length_toDigits_le_iff (by decide) hcount).mpr h

/-- An integer is its magnitude with its sign. -/
theorem signed_natAbs (i : Int) :
    (if decide (i < 0) then -(i.natAbs : Int) else i.natAbs) = i := by
  by_cases hneg : i < 0
  · rw [if_pos (decide_eq_true hneg)]
    omega
  · rw [if_neg (by simpa using hneg)]
    omega

/-- The text of an integer: its digits, after a minus sign if it is negative. -/
theorem toList_toString (i : Int) :
    (toString i).toList =
      if i < 0 then '-' :: Nat.toDigits 10 i.natAbs else Nat.toDigits 10 i.natAbs := by
  rw [Int.toString_eq_repr, Int.repr_eq_if]
  by_cases hneg : i < 0
  · rw [if_neg (by omega), if_pos hneg, show (-i).toNat = i.natAbs by omega, String.toList_append,
      Nat.toList_repr]
    rfl
  · rw [if_pos (by omega), if_neg hneg, show i.toNat = i.natAbs by omega, Nat.toList_repr]

/-- Digits of a whole number, with no zero in front of others. -/
structure IsWhole (s : List Char) : Prop where
  digits : AreDigits s
  nonempty : s ≠ []
  lead : s.head? = some '0' → s = ['0']

theorem isWhole_toDigits (n : Nat) : IsWhole (Nat.toDigits 10 n) := by
  refine ⟨areDigits_toDigits n, Nat.toDigits_ne_nil, fun hhead => ?_⟩
  by_cases hzero : n = 0
  · rw [hzero]
    rfl
  · obtain ⟨d, rest, hdigits, hd⟩ := exists_toDigits hzero
    rw [hdigits] at hhead
    exact absurd (Option.some.inj hhead) hd

theorem isWhole_singleton {d : Char} (hd : d.isDigit = true) : IsWhole [d] := by
  refine ⟨fun c hc => ?_, List.cons_ne_nil d [], fun hhead => ?_⟩
  · rwa [List.mem_singleton.mp hc]
  · rw [Option.some.inj hhead]

namespace Numeral

def marks : List Char := ['0', '1', '2', '3', '4', '5', '6', '7', '8', '9', '+', '-', '.', 'e']

theorem isDigit_bounds {c : Char} (h : c.isDigit = true) : 48 ≤ c.toNat ∧ c.toNat ≤ 57 := by
  simpa [Char.isDigit, UInt32.le_iff_toNat_le] using h

theorem mem_marks_of_isDigit {c : Char} (h : c.isDigit = true) : c ∈ marks := by
  have hall : ∀ n : Fin 10, Char.ofNat (48 + n.val) ∈ marks := by decide
  have hbounds := isDigit_bounds h
  have hdigit := hall ⟨c.toNat - 48, by omega⟩
  rwa [show 48 + (c.toNat - 48) = c.toNat by omega, Char.ofNat_toNat] at hdigit

/-- What all marks are, the characters of a written number are. -/
theorem forall_marks {p : Char → Bool} {s : List Char} (h : s ⊆ marks) (hp : marks.all p = true) :
    ∀ c ∈ s, p c = true :=
  fun c hc => List.all_eq_true.mp hp c (h hc)

private theorem dropWhile_marks {s : List Char} (h : s ⊆ marks) : s.dropWhile isAround = s := by
  cases s with
  | nil => rfl
  | cons c s =>
      have hc : (!isAround c) = true :=
        forall_marks h (p := fun c => !isAround c) (by decide) c (by simp)
      rw [Bool.not_eq_true'] at hc
      simp [hc]

theorem simplified_marks {s : List Char} (h : s ⊆ marks) : simplified s = s := by
  have hreverse : s.reverse ⊆ marks := fun c hc => h (List.mem_reverse.mp hc)
  rw [simplified, dropWhile_marks h, dropWhile_marks hreverse, List.reverse_reverse]
  refine (List.map_congr_left fun c hc => ?_).trans (List.map_id s)
  have hvalue : (digitValue? c).all (fun d => Char.ofNat (48 + d) = c) = true :=
    forall_marks h (p := fun c => (digitValue? c).all fun d => Char.ofNat (48 + d) = c)
      (by decide) c hc
  split
  next d hd => simpa [hd] using hvalue
  next => rfl

theorem ungrouped?_marks {p : Char → Bool} {s : List Char} (h : s ⊆ marks) :
    ungrouped? p s = some s := by
  have hline : '_' ∉ s := fun hmem => absurd (h hmem) (by decide)
  clear h
  fun_induction ungrouped? p s with
  | case1 => rfl
  | case6 c rest _ _ hc ih => simp [ih (fun hmem => hline (by simp [hmem]))]
  | _ => simp at hline

theorem natural?_digits {s : List Char} (h : AreDigits s) (hnonempty : s ≠ []) :
    natural? 10 s = some (Nat.ofDigitChars 10 s 0) := by
  have hfold (n : Nat) : s.foldl
      (fun n? c => do return (← n?) * 10 + (← digitIn? 10 c)) (some n) =
      some (Nat.ofDigitChars 10 s n) := by
    clear hnonempty
    induction s generalizing n with
    | nil => rfl
    | cons c s ih =>
        have hbounds := isDigit_bounds (h c (by simp))
        have hdigit : digitIn? 10 c = some (c.toNat - 48) := by
          simp [digitIn?, h c (by simp)]
          omega
        rw [List.foldl_cons, Nat.ofDigitChars_cons, hdigit]
        refine (ih (fun d hd => h d (by simp [hd])) _).trans ?_
        rw [Nat.mul_comm 10]
        rfl
  rw [natural?, if_neg (by simpa using hnonempty), hfold 0]

theorem sign_digit {d : Char} (hd : d.isDigit = true) (rest : List Char) :
    sign (d :: rest) = (false, d :: rest) := by
  unfold sign
  split
  · next heq => cases heq; exact absurd hd (by decide)
  · next heq => cases heq; exact absurd hd (by decide)
  · rfl

theorem span_digits {s t : List Char} (hs : AreDigits s)
    (ht : (t.head?.map Char.isDigit).getD false = false) : (s ++ t).span Char.isDigit = (s, t) := by
  have htail : t.takeWhile Char.isDigit = [] ∧ t.dropWhile Char.isDigit = t := by
    cases t with
    | nil => exact ⟨rfl, rfl⟩
    | cons c t =>
        have hc : c.isDigit = false := ht
        simp [hc]
  rw [List.span_eq_takeWhile_dropWhile, List.takeWhile_append_of_pos hs,
    List.dropWhile_append_of_pos hs, htail.1, htail.2, List.append_nil]

end Numeral

end FunctionPipeline

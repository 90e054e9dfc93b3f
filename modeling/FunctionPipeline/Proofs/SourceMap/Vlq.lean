import FunctionPipeline.Proofs.Text.Octets
import FunctionPipeline.SourceMap.Mappings

/-!
Numbers of variable length as they are written, and that they are read back: `decode_encode`. A
segment that is read has a number in it unless it is empty, since its last digit ends a number.
Which texts are read at all, and what a text reads as behind one that is read, is put together in
`decode_laws`: digits are open as long as the last one says that more follow.
-/

namespace FunctionPipeline

namespace Vlq

/-- The digits of bits, the lowest five first; all but the last say that more follow. -/
def bitDigits (bits : Nat) : List Char :=
  if bits < 32 then [Base64.digitChar bits]
  else Base64.digitChar (bits % 32 + 32) :: bitDigits (bits / 32)

/-- The bits of a number: its magnitude above its sign bit. -/
def toBits (n : Int) : Nat := 2 * n.natAbs + if n < 0 then 1 else 0

def encode (numbers : List Int) : List Char := numbers.flatMap fun n => bitDigits (toBits n)

theorem ofBits_toBits (n : Int) : ofBits (toBits n) = n := by
  unfold ofBits toBits
  dsimp only
  split <;> split <;> omega

theorem bitDigits_ne_nil (bits : Nat) : bitDigits bits ≠ [] := by
  rw [bitDigits]
  split <;> simp

/-- No digit separates anything. -/
theorem not_separator_of_mem_bitDigits {bits : Nat} {c : Char} (h : c ∈ bitDigits bits) :
    c ≠ ',' ∧ c ≠ ';' := by
  induction bits using Nat.strongRecOn with
  | ind bits ih =>
      rw [bitDigits] at h
      split at h
      next hsmall =>
        obtain rfl := List.mem_singleton.mp h
        exact (Base64.digit?_digitChar (by omega)).2
      next hlarge =>
        rcases List.mem_cons.mp h with rfl | hrest
        · exact (Base64.digit?_digitChar (by omega)).2
        · exact ih (bits / 32) (by omega) hrest

theorem not_separator_of_mem_encode {numbers : List Int} {c : Char} (h : c ∈ encode numbers) :
    c ≠ ',' ∧ c ≠ ';' := by
  obtain ⟨n, -, hc⟩ := List.mem_flatMap.mp h
  exact not_separator_of_mem_bitDigits hc

theorem encode_ne_nil {numbers : List Int} (h : numbers ≠ []) : encode numbers ≠ [] := by
  cases numbers with
  | nil => exact absurd rfl h
  | cons n rest => simp [encode, bitDigits_ne_nil]

/-- The digits of bits are read to their end, above what was read before. -/
theorem digits_bitDigits (low bits shift : Nat) (rest : List Char) :
    digits low shift (bitDigits bits ++ rest) =
      (digits 0 0 rest).map (Option.map (ofBits (low + bits * Nat.pow 2 shift) :: ·)) := by
  induction bits using Nat.strongRecOn generalizing low shift with
  | ind bits ih =>
      rw [bitDigits]
      split
      next hsmall =>
        have hdigit := (Base64.digit?_digitChar (show bits < 64 by omega)).1
        have hlast : ¬ bits ≥ 32 := by omega
        simp only [List.cons_append, List.nil_append, digits, hdigit, Nat.mod_eq_of_lt hsmall,
          hlast, if_false]
        cases digits 0 0 rest <;> rfl
      next hlarge =>
        have hdigit := (Base64.digit?_digitChar (show bits % 32 + 32 < 64 by omega)).1
        have hmore : bits % 32 + 32 ≥ 32 := by omega
        have hlow : (bits % 32 + 32) % 32 = bits % 32 := by omega
        have hbits : low + bits % 32 * Nat.pow 2 shift + bits / 32 * Nat.pow 2 (shift + 5) =
            low + bits * Nat.pow 2 shift := by
          have hpow : Nat.pow 2 (shift + 5) = 32 * Nat.pow 2 shift := by
            rw [Nat.pow_eq, Nat.pow_eq, Nat.pow_add, Nat.mul_comm]
          have hsplit : bits % 32 * Nat.pow 2 shift + bits / 32 * (32 * Nat.pow 2 shift) =
              (bits % 32 + 32 * (bits / 32)) * Nat.pow 2 shift := by
            rw [Nat.add_mul, ← Nat.mul_assoc, Nat.mul_comm 32]
          rw [hpow, Nat.add_assoc, hsplit, Nat.mod_add_div]
        simp only [List.cons_append, digits, hdigit, hmore, if_true, hlow]
        rw [ih (bits / 32) (by omega), hbits]

/-- Numbers are read back from their text. -/
theorem decode_encode (numbers : List Int) : decode (encode numbers) = .ok numbers := by
  have hdigits : digits 0 0 (encode numbers) = .ok (some numbers) := by
    induction numbers with
    | nil => rfl
    | cons n rest ih =>
        rw [encode, List.flatMap_cons, digits_bitDigits]
        rw [encode] at ih
        have hbits : 0 + toBits n * Nat.pow 2 0 = toBits n := by simp
        rw [ih, hbits, ofBits_toBits]
        rfl
  rw [decode, hdigits]

/-- Digits without a number are none at all. -/
theorem eq_nil_of_digits {low shift : Nat} {segment : List Char}
    (h : digits low shift segment = .ok (some [])) : segment = [] ∧ shift = 0 := by
  induction segment generalizing low shift with
  | nil =>
      refine ⟨rfl, ?_⟩
      by_cases hshift : shift = 0
      · exact hshift
      · simp [digits, hshift] at h
  | cons c rest ih =>
      rw [digits] at h
      split at h
      next => cases h
      next d _ =>
        simp only at h
        split at h
        next => exact absurd (ih h).2 (by omega)
        next =>
          cases hrest : digits 0 0 rest with
          | error cause => rw [hrest] at h; cases h
          | ok others => cases others <;> rw [hrest] at h <;> cases h

/-- Only an empty segment has no number. -/
theorem ne_nil_of_decode {segment : List Char} {numbers : List Int} (hsegment : segment ≠ [])
    (h : decode segment = .ok numbers) : numbers ≠ [] := by
  rintro rfl
  unfold decode at h
  split at h
  next => cases h
  next => cases h
  next found hdigits =>
    cases h
    exact hsegment (eq_nil_of_digits hdigits).1

def continues (c : Char) : Bool := (Base64.digit? c).any fun d => d.testBit 5

theorem continues_of_digit {c : Char} {d : Nat} (h : Base64.digit? c = some d) :
    continues c = decide (32 ≤ d) := by
  have hall : ∀ m : Fin 64, m.val.testBit 5 = decide (32 ≤ m.val) := by decide +kernel
  rw [continues, h, Option.any_some]
  exact hall ⟨d, Base64.lt_of_digit? h⟩

/-- Whether a number is open behind a segment: its last digit says that more follow, or it has none
and the number was open before. -/
def IsOpen (shift : Nat) (segment : List Char) : Prop :=
  match segment.getLast? with
  | some c => continues c = true
  | none => shift ≠ 0

theorem isOpen_cons {shift : Nat} {c : Char} (rest : List Char) (next : Nat)
    (h : next ≠ 0 ↔ continues c = true) : IsOpen shift (c :: rest) ↔ IsOpen next rest := by
  cases rest with
  | nil => exact h.symm
  | cons d rest => rw [IsOpen, IsOpen, List.getLast?_cons_cons, List.getLast?_cons]

/-- A character outside the alphabet is an error wherever it stands. -/
theorem error_of_not_digit {segment : List Char} (h : ∃ c ∈ segment, c ∉ Base64.alphabet)
    (low shift : Nat) : ∃ c, digits low shift segment = .error c := by
  induction segment generalizing low shift with
  | nil => simp at h
  | cons c rest ih =>
      rw [digits]
      cases hdigit : Base64.digit? c with
      | none => exact ⟨c, rfl⟩
      | some d =>
          have hrest : ∃ c ∈ rest, c ∉ Base64.alphabet := by
            obtain ⟨b, hb, hout⟩ := h
            rcases List.mem_cons.mp hb with rfl | hmem
            · rw [Base64.mem_alphabet_iff, hdigit] at hout
              exact absurd rfl hout
            · exact ⟨b, hmem, hout⟩
          dsimp only
          split
          · exact ih hrest _ _
          · obtain ⟨b, hb⟩ := ih hrest 0 0
            exact ⟨b, by rw [hb]; rfl⟩

/-- Digits of the alphabet are no number if one is open behind them, and else a number for each
digit that ends one. -/
theorem digits_of_alphabet {segment : List Char} (h : ∀ c ∈ segment, c ∈ Base64.alphabet)
    (low shift : Nat) :
    (IsOpen shift segment ∧ digits low shift segment = .ok none) ∨
      (¬ IsOpen shift segment ∧ ∃ numbers, digits low shift segment = .ok (some numbers) ∧
        numbers.length = segment.countP fun c => !continues c) := by
  induction segment generalizing low shift with
  | nil =>
      by_cases hshift : shift = 0
      · exact Or.inr ⟨fun hopen => hopen hshift, [], by rw [digits, if_pos hshift], rfl⟩
      · exact Or.inl ⟨hshift, by rw [digits, if_neg hshift]⟩
  | cons c rest ih =>
      obtain ⟨hc, hrest⟩ := List.forall_mem_cons.mp h
      obtain ⟨d, hdigit⟩ := Option.isSome_iff_exists.mp ((Base64.mem_alphabet_iff c).mp hc)
      have hcontinues := continues_of_digit hdigit
      rw [digits, hdigit]
      dsimp only
      by_cases hmore : 32 ≤ d
      · rw [decide_eq_true hmore] at hcontinues
        rw [if_pos hmore, isOpen_cons rest (shift + 5) (by simp [hcontinues])]
        simpa [hcontinues] using ih hrest (low + d % 32 * Nat.pow 2 shift) (shift + 5)
      · rw [decide_eq_false hmore] at hcontinues
        rw [if_neg hmore, isOpen_cons rest 0 (by simp [hcontinues])]
        rcases ih hrest 0 0 with ⟨hopen, hread⟩ | ⟨hclosed, numbers, hread, hcount⟩
        · exact Or.inl ⟨hopen, by rw [hread]; rfl⟩
        · refine Or.inr ⟨hclosed, ofBits (low + d % 32 * Nat.pow 2 shift) :: numbers, ?_, ?_⟩
          · rw [hread]
            rfl
          · rw [List.length_cons, hcount, List.countP_cons_of_pos (by simp [hcontinues])]

/-- Behind digits that are read to their end a text is read as it is by itself. Nothing is left of
a number that is not open. -/
theorem digits_append {low shift : Nat} {segment : List Char} {numbers : List Int}
    (hleft : shift = 0 → low = 0) (h : digits low shift segment = .ok (some numbers))
    (rest : List Char) :
    digits low shift (segment ++ rest) =
      (digits 0 0 rest).map (Option.map (numbers ++ ·)) := by
  induction segment generalizing low shift numbers with
  | nil =>
      rw [digits] at h
      split at h
      next hshift =>
        cases h
        rw [List.nil_append, hleft hshift, hshift]
        cases digits 0 0 rest with
        | error c => rfl
        | ok found => cases found <;> rfl
      next => cases h
  | cons c segment ih =>
      rw [List.cons_append, digits]
      rw [digits] at h
      cases hdigit : Base64.digit? c with
      | none =>
          rw [hdigit] at h
          cases h
      | some d =>
          rw [hdigit] at h
          dsimp only at h ⊢
          split at h
          next hmore =>
            rw [if_pos hmore]
            exact ih (fun hshift => absurd hshift (Nat.succ_ne_zero _)) h
          next hlast =>
            rw [if_neg hlast]
            cases hread : digits 0 0 segment with
            | error b =>
                rw [hread] at h
                cases h
            | ok found =>
                rw [hread] at h
                cases found with
                | none => cases h
                | some others =>
                    cases h
                    rw [ih (fun _ => rfl) hread]
                    cases digits 0 0 rest with
                    | error b => rfl
                    | ok more => cases more <;> rfl

theorem decode_eq_ok_iff {segment : List Char} {numbers : List Int} :
    decode segment = .ok numbers ↔ digits 0 0 segment = .ok (some numbers) := by
  unfold decode
  constructor
  · intro h
    split at h
    next => cases h
    next => cases h
    next found hdigits =>
      cases h
      exact hdigits
  · intro h
    rw [h]

theorem isOpen_zero_iff (segment : List Char) :
    IsOpen 0 segment ↔ ∃ c, segment.getLast? = some c ∧ continues c = true := by
  rw [IsOpen]
  cases segment.getLast? with
  | none => simp
  | some c => simp

/-- A text behind a segment that is read is read as it is by itself, and fails if it does so. -/
theorem decode_append {segment : List Char} {numbers : List Int} (h : decode segment = .ok numbers)
    (rest : List Char) (all : List Int) :
    decode (segment ++ rest) = .ok all ↔
      ∃ others, decode rest = .ok others ∧ all = numbers ++ others := by
  simp only [decode_eq_ok_iff] at h ⊢
  rw [digits_append (fun _ => rfl) h rest]
  cases digits 0 0 rest with
  | error c => simp [Except.map]
  | ok found => cases found <;> simp [Except.map, eq_comm]

/-- A text is no sequence of numbers if a character is outside the alphabet or its last digit says
that more follow, and only then. -/
theorem decode_eq_error_iff (text : List Char) :
    (∃ cause, decode text = .error cause) ↔
      (∃ c ∈ text, c ∉ Base64.alphabet) ∨ ∃ c, text.getLast? = some c ∧ continues c = true := by
  rw [← isOpen_zero_iff]
  by_cases hout : ∃ c ∈ text, c ∉ Base64.alphabet
  · obtain ⟨c, hc⟩ := error_of_not_digit hout 0 0
    exact iff_of_true ⟨.badCharacter c, by rw [decode, hc]⟩ (Or.inl hout)
  · have hall : ∀ c ∈ text, c ∈ Base64.alphabet := by simpa using hout
    rcases digits_of_alphabet hall 0 0 with ⟨hopen, hread⟩ | ⟨hclosed, numbers, hread, -⟩
    · exact iff_of_true ⟨.truncated text, by rw [decode, hread]⟩ (Or.inr hopen)
    · have hgiven : ¬ ∃ cause, decode text = .error cause := by
        rintro ⟨cause, hcause⟩
        rw [decode_eq_ok_iff.mpr hread] at hcause
        cases hcause
      exact iff_of_false hgiven (not_or.mpr ⟨hout, hclosed⟩)

/-- There is a number for each digit that ends one. -/
theorem length_of_decode {text : List Char} {numbers : List Int} (h : decode text = .ok numbers) :
    numbers.length = text.countP fun c => !continues c := by
  have hread := decode_eq_ok_iff.mp h
  have hall : ∀ c ∈ text, c ∈ Base64.alphabet := by
    intro c hc
    refine Decidable.of_not_not fun hout => ?_
    obtain ⟨b, hb⟩ := error_of_not_digit ⟨c, hc, hout⟩ 0 0
    rw [hread] at hb
    cases hb
  rcases digits_of_alphabet hall 0 0 with ⟨-, hnone⟩ | ⟨-, found, hfound, hcount⟩
  · rw [hread] at hnone
    cases hnone
  · rw [hread] at hfound
    cases hfound
    exact hcount

/-- The laws of reading numbers: what was written is read back, a text behind a segment that is read
is read by itself, a text is refused exactly if a character is outside the alphabet or its last one
says that more follow, and else it has a number for each digit that does not. -/
theorem decode_laws :
    (∀ numbers, decode (encode numbers) = .ok numbers) ∧
    (∀ segment numbers, decode segment = .ok numbers → ∀ rest all,
      decode (segment ++ rest) = .ok all ↔
        ∃ others, decode rest = .ok others ∧ all = numbers ++ others) ∧
    ∀ text,
      ((∃ cause, decode text = .error cause) ↔
        (∃ c ∈ text, c ∉ Base64.alphabet) ∨
          ∃ c, text.getLast? = some c ∧ continues c = true) ∧
      ∀ numbers, decode text = .ok numbers →
        numbers.length = text.countP fun c => !continues c :=
  ⟨decode_encode, fun _ _ h => decode_append h,
    fun text => ⟨decode_eq_error_iff text, fun _ => length_of_decode⟩⟩

/-- Sixteen in its usual digits, and minus one with a digit more than it needs behind it. -/
theorem decode_laws_padded :
    decode "gB".toList = .ok [16] ∧ decode "jA".toList = .ok [-1] ∧
      decode "gBjA".toList = .ok [16, -1] ∧
      [16, -1].length = "gBjA".toList.countP fun c => !continues c := by
  have hfirst : decode "gB".toList = .ok [16] := rfl
  have hsecond : decode "jA".toList = .ok [-1] := rfl
  obtain ⟨-, happend, htext⟩ := decode_laws
  have hboth : decode "gBjA".toList = .ok [16, -1] :=
    (happend _ _ hfirst "jA".toList [16, -1]).mpr ⟨[-1], hsecond, rfl⟩
  exact ⟨hfirst, hsecond, hboth, (htext _).2 _ hboth⟩

end Vlq

end FunctionPipeline

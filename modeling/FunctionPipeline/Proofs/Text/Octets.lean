import FunctionPipeline.Text.Base64
import FunctionPipeline.Text.Utf8
import Mathlib.Tactic.SplitIfs

/-!
Octets and their texts are read back. In base 64 each full group of digits is read as its three
octets, and what is left over as its one or two. In UTF-8 a character has one of four forms, by the
size of its code point; each form is told by its first octet, and the bits of the octets after it
are put together again.
-/

namespace FunctionPipeline.Base64

/-- The characters of digits are read back, and none of them separates anything. -/
theorem digit?_digitChar {n : Nat} (h : n < 64) :
    digit? (digitChar n) = some n ∧ digitChar n ≠ ',' ∧ digitChar n ≠ ';' := by
  have hall : ∀ m : Fin 64, digit? (digitChar m) = some m.val ∧ digitChar m ≠ ',' ∧
      digitChar m ≠ ';' := by
    decide +kernel
  exact hall ⟨n, h⟩

theorem bounds_of_digit? {c : Char} {d : Nat} (h : digit? c = some d) :
    c.toNat < 128 ∧ d < 64 := by
  rw [digit?] at h
  split_ifs at h <;> cases h <;> omega

theorem lt_of_digit? {c : Char} {d : Nat} (h : digit? c = some d) : d < 64 :=
  (bounds_of_digit? h).2

/-- A digit has one character. -/
theorem digitChar_of_digit? {c : Char} {d : Nat} (h : digit? c = some d) : digitChar d = c := by
  have hall : ∀ m : Fin 128,
      (digit? (Char.ofNat m)).all (fun d => digitChar d == Char.ofNat m) = true := by
    decide +kernel
  have hthis := hall ⟨c.toNat, (bounds_of_digit? h).1⟩
  rw [Char.ofNat_toNat, h] at hthis
  exact eq_of_beq hthis

/-- The characters of the alphabet are the digits. -/
theorem mem_alphabet_iff (c : Char) : c ∈ alphabet ↔ (digit? c).isSome = true := by
  constructor
  · have hall : (alphabet.all fun c => (digit? c).isSome) = true := by decide +kernel
    exact List.all_eq_true.mp hall c
  · intro hdigit
    obtain ⟨d, hd⟩ := Option.isSome_iff_exists.mp hdigit
    have hlength : d < alphabet.length := lt_of_digit? hd
    rw [← digitChar_of_digit? hd, digitChar, List.getD_eq_getElem?_getD,
      List.getElem?_eq_getElem hlength]
    exact List.getElem_mem hlength

theorem digitChar_ne_pad {n : Nat} (h : n < 64) : digitChar n ≠ '=' := by
  intro hpad
  have hdigit := (digit?_digitChar h).1
  rw [hpad] at hdigit
  cases hdigit

section Digits

variable {d : Nat} {octet : UInt8} {left pads : Nat} {rest : List Char}

theorem decodeFrom_first (h : d < 64) :
    decodeFrom 0 left pads (digitChar d :: rest) = decodeFrom 1 d 0 rest := by
  have hdigit := (digit?_digitChar h).1
  have hpad := digitChar_ne_pad h
  simp only [decodeFrom, if_neg hpad, hdigit]

/-- From the second digit of a group on, each one completes an octet. -/
theorem decodeFrom_second (h : d < 64) (hoctet : left * 4 + d / 16 = octet.toNat) :
    decodeFrom 1 left pads (digitChar d :: rest) =
      (decodeFrom 2 (d % 16) 0 rest).map (octet :: ·) := by
  have hdigit := (digit?_digitChar h).1
  have hpad := digitChar_ne_pad h
  simp only [decodeFrom, if_neg hpad, hdigit, hoctet, Nat.toUInt8_eq, UInt8.ofNat_toNat]

theorem decodeFrom_third (h : d < 64) (hoctet : left * 16 + d / 4 = octet.toNat) :
    decodeFrom 2 left pads (digitChar d :: rest) =
      (decodeFrom 3 (d % 4) 0 rest).map (octet :: ·) := by
  have hdigit := (digit?_digitChar h).1
  have hpad := digitChar_ne_pad h
  simp only [decodeFrom, if_neg hpad, hdigit, hoctet, Nat.toUInt8_eq, UInt8.ofNat_toNat]

theorem decodeFrom_fourth (h : d < 64) (hoctet : left * 64 + d = octet.toNat) :
    decodeFrom 3 left pads (digitChar d :: rest) =
      (decodeFrom 0 0 0 rest).map (octet :: ·) := by
  have hdigit := (digit?_digitChar h).1
  have hpad := digitChar_ne_pad h
  simp only [decodeFrom, if_neg hpad, hdigit, hoctet, Nat.toUInt8_eq, UInt8.ofNat_toNat]

end Digits

/-- Octets are read back from their text. -/
theorem decode?_encode (octets : List UInt8) : decode? (encode octets) = some octets := by
  unfold decode?
  fun_induction encode octets with
  | case1 => rfl
  | case2 a n =>
      have ha := a.toNat_lt
      have hfirst : n / 64 * 4 + n % 64 / 16 = a.toNat := by omega
      rw [decodeFrom_first (by omega), decodeFrom_second (by omega) hfirst]
      rfl
  | case3 a b n =>
      have ha := a.toNat_lt
      have hb := b.toNat_lt
      have hfirst : n / 4096 * 4 + n / 64 % 64 / 16 = a.toNat := by omega
      have hsecond : n / 64 % 64 % 16 * 16 + n % 64 / 4 = b.toNat := by omega
      rw [decodeFrom_first (by omega), decodeFrom_second (by omega) hfirst,
        decodeFrom_third (by omega) hsecond]
      rfl
  | case4 a b c rest n ih =>
      have ha := a.toNat_lt
      have hb := b.toNat_lt
      have hc := c.toNat_lt
      have hfirst : n / 262144 * 4 + n / 4096 % 64 / 16 = a.toNat := by omega
      have hsecond : n / 4096 % 64 % 16 * 16 + n / 64 % 64 / 4 = b.toNat := by omega
      have hthird : n / 64 % 64 % 4 * 64 + n % 64 = c.toNat := by omega
      rw [decodeFrom_first (by omega), decodeFrom_second (by omega) hfirst,
        decodeFrom_third (by omega) hsecond, decodeFrom_fourth (by omega) hthird, ih]
      rfl

theorem encode_ne_nil {octets : List UInt8} (h : octets ≠ []) : encode octets ≠ [] := by
  fun_cases encode octets with
  | case1 => contradiction
  | _ => simp

/-- A text in base 64 is made of digits and padding. -/
theorem mem_encode {octets : List UInt8} {c : Char} (h : c ∈ encode octets) :
    (digit? c).isSome = true ∨ c = '=' := by
  have hdigit {d : Nat} (hd : d < 64) : (digit? (digitChar d)).isSome = true := by
    rw [(digit?_digitChar hd).1]
    rfl
  fun_induction encode octets with
  | case1 => cases h
  | case2 a n =>
      have ha := a.toNat_lt
      simp only [List.mem_cons, List.not_mem_nil, or_false] at h
      rcases h with rfl | rfl | rfl | rfl
      · exact Or.inl (hdigit (by omega))
      · exact Or.inl (hdigit (by omega))
      · exact Or.inr rfl
      · exact Or.inr rfl
  | case3 a b n =>
      have ha := a.toNat_lt
      have hb := b.toNat_lt
      simp only [List.mem_cons, List.not_mem_nil, or_false] at h
      rcases h with rfl | rfl | rfl | rfl
      · exact Or.inl (hdigit (by omega))
      · exact Or.inl (hdigit (by omega))
      · exact Or.inl (hdigit (by omega))
      · exact Or.inr rfl
  | case4 a b c rest n ih =>
      have ha := a.toNat_lt
      have hb := b.toNat_lt
      have hc := c.toNat_lt
      simp only [List.mem_cons] at h
      rcases h with rfl | rfl | rfl | rfl | hrest
      · exact Or.inl (hdigit (by omega))
      · exact Or.inl (hdigit (by omega))
      · exact Or.inl (hdigit (by omega))
      · exact Or.inl (hdigit (by omega))
      · exact ih hrest

end FunctionPipeline.Base64

namespace FunctionPipeline.Utf8

theorem toNat_lt (c : Char) : c.toNat < 0x110000 := by
  rcases c.valid with hlow | hhigh
  · exact Nat.lt_trans hlow (by decide)
  · exact hhigh.2

section Octets

variable {n : Nat}

theorem toNat_toUInt8 (h : n < 0x100) : n.toUInt8.toNat = n := by
  rw [Nat.toUInt8_eq]
  exact UInt8.toNat_ofNat_of_lt' h

theorem toUInt8_lt_iff (h : n < 0x100) {bound : UInt8} :
    n.toUInt8 < bound ↔ n < bound.toNat := by
  rw [UInt8.lt_iff_toNat_lt, toNat_toUInt8 h]

theorem continuation?_mod (n : Nat) : continuation? (0x80 + n % 0x40).toUInt8 = some (n % 0x40) := by
  have hbits : n % 0x40 < 0x40 := Nat.mod_lt n (by decide)
  have hvalue := toNat_toUInt8 (show 0x80 + n % 0x40 < 0x100 by omega)
  have hbounds : 0x80 ≤ (0x80 + n % 0x40).toUInt8 ∧ (0x80 + n % 0x40).toUInt8 < 0xC0 := by
    rw [UInt8.le_iff_toNat_le, UInt8.lt_iff_toNat_lt, hvalue]
    exact ⟨Nat.le_add_right 0x80 _, Nat.add_lt_add_left hbits 0x80⟩
  rw [continuation?, if_pos hbounds, hvalue, Nat.add_sub_cancel_left]

theorem charFrom?_toNat {least : Nat} {c : Char} (h : least ≤ c.toNat) :
    charFrom? least c.toNat = some c := by
  rw [charFrom?, if_pos ⟨h, c.valid⟩, Char.ofNat_toNat]

end Octets

section Forms

variable {c : Char} (rest : List UInt8)

theorem decode?_one (h : c.toNat < 0x80) :
    decode? (c.toNat.toUInt8 :: rest) = (decode? rest).map (c :: ·) := by
  have hfirst : c.toNat.toUInt8 < 0x80 := (toUInt8_lt_iff (by omega)).mpr h
  rw [decode?.eq_def]
  simp only [if_pos hfirst, toNat_toUInt8 (show c.toNat < 0x100 by omega), Char.ofNat_toNat]

theorem decode?_two (hfrom : 0x80 ≤ c.toNat) (hto : c.toNat < 0x800) :
    decode? ((0xC0 + c.toNat / 0x40).toUInt8 :: (0x80 + c.toNat % 0x40).toUInt8 :: rest) =
      (decode? rest).map (c :: ·) := by
  have hoctet : 0xC0 + c.toNat / 0x40 < 0x100 := by omega
  have hascii : ¬ (0xC0 + c.toNat / 0x40).toUInt8 < 0x80 := by
    rw [toUInt8_lt_iff hoctet]
    exact Nat.not_lt.mpr (show 0x80 ≤ 0xC0 + c.toNat / 0x40 by omega)
  have hleast : ¬ (0xC0 + c.toNat / 0x40).toUInt8 < 0xC2 := by
    rw [toUInt8_lt_iff hoctet]
    exact Nat.not_lt.mpr (show 0xC2 ≤ 0xC0 + c.toNat / 0x40 by omega)
  have htwo : (0xC0 + c.toNat / 0x40).toUInt8 < 0xE0 :=
    (toUInt8_lt_iff hoctet).mpr (show 0xC0 + c.toNat / 0x40 < 0xE0 by omega)
  have hpoint : (0xC0 + c.toNat / 0x40 - 0xC0) * 0x40 + c.toNat % 0x40 = c.toNat := by omega
  rw [decode?, if_neg hascii, if_neg hleast, if_pos htwo, toNat_toUInt8 hoctet]
  simp only [continuation?_mod, Option.bind_eq_bind, Option.bind_some, hpoint,
    charFrom?_toNat hfrom]

theorem decode?_three (hfrom : 0x800 ≤ c.toNat) (hto : c.toNat < 0x10000) :
    decode? ((0xE0 + c.toNat / 0x1000).toUInt8 :: (0x80 + c.toNat / 0x40 % 0x40).toUInt8 ::
      (0x80 + c.toNat % 0x40).toUInt8 :: rest) = (decode? rest).map (c :: ·) := by
  have hoctet : 0xE0 + c.toNat / 0x1000 < 0x100 := by omega
  have hbelow {bound : UInt8} (h : bound.toNat ≤ 0xE0) :
      ¬ (0xE0 + c.toNat / 0x1000).toUInt8 < bound := by
    rw [toUInt8_lt_iff hoctet]
    omega
  have hthree : (0xE0 + c.toNat / 0x1000).toUInt8 < 0xF0 :=
    (toUInt8_lt_iff hoctet).mpr (show 0xE0 + c.toNat / 0x1000 < 0xF0 by omega)
  have hpoint : ((0xE0 + c.toNat / 0x1000 - 0xE0) * 0x40 + c.toNat / 0x40 % 0x40) * 0x40 +
      c.toNat % 0x40 = c.toNat := by omega
  rw [decode?, if_neg (hbelow (by decide)), if_neg (hbelow (by decide)),
    if_neg (hbelow (by decide)), if_pos hthree, toNat_toUInt8 hoctet]
  simp only [continuation?_mod, Option.bind_eq_bind, Option.bind_some, hpoint,
    charFrom?_toNat hfrom]

theorem decode?_four (hfrom : 0x10000 ≤ c.toNat) :
    decode? ((0xF0 + c.toNat / 0x40000).toUInt8 :: (0x80 + c.toNat / 0x1000 % 0x40).toUInt8 ::
      (0x80 + c.toNat / 0x40 % 0x40).toUInt8 :: (0x80 + c.toNat % 0x40).toUInt8 :: rest) =
      (decode? rest).map (c :: ·) := by
  have hto := toNat_lt c
  have hoctet : 0xF0 + c.toNat / 0x40000 < 0x100 := by omega
  have hbelow {bound : UInt8} (h : bound.toNat ≤ 0xF0) :
      ¬ (0xF0 + c.toNat / 0x40000).toUInt8 < bound := by
    rw [toUInt8_lt_iff hoctet]
    omega
  have hfour : (0xF0 + c.toNat / 0x40000).toUInt8 < 0xF5 :=
    (toUInt8_lt_iff hoctet).mpr (show 0xF0 + c.toNat / 0x40000 < 0xF5 by omega)
  have hpoint : (((0xF0 + c.toNat / 0x40000 - 0xF0) * 0x40 + c.toNat / 0x1000 % 0x40) * 0x40 +
      c.toNat / 0x40 % 0x40) * 0x40 + c.toNat % 0x40 = c.toNat := by omega
  rw [decode?, if_neg (hbelow (by decide)), if_neg (hbelow (by decide)),
    if_neg (hbelow (by decide)), if_neg (hbelow (by decide)), if_pos hfour, toNat_toUInt8 hoctet]
  simp only [continuation?_mod, Option.bind_eq_bind, Option.bind_some, hpoint,
    charFrom?_toNat hfrom]

end Forms

/-- The octets of a character, whichever form they take, are read as that character. -/
theorem decode?_octetsOf (c : Char) (rest : List UInt8) :
    decode? (octetsOf c.toNat ++ rest) = (decode? rest).map (c :: ·) := by
  unfold octetsOf
  by_cases hone : c.toNat < 0x80
  · rw [if_pos hone]
    exact decode?_one rest hone
  rw [if_neg hone]
  by_cases htwo : c.toNat < 0x800
  · rw [if_pos htwo]
    exact decode?_two rest (Nat.le_of_not_lt hone) htwo
  rw [if_neg htwo]
  by_cases hthree : c.toNat < 0x10000
  · rw [if_pos hthree]
    exact decode?_three rest (Nat.le_of_not_lt htwo) hthree
  · rw [if_neg hthree]
    exact decode?_four rest (Nat.le_of_not_lt hthree)

/-- A text is read back from its octets. -/
theorem decode?_encode (s : List Char) : decode? (encode s) = some s := by
  induction s with
  | nil => rfl
  | cons c s ih =>
      rw [encode, List.flatMap_cons, decode?_octetsOf]
      change (decode? (encode s)).map (c :: ·) = _
      rw [ih, Option.map_some]

theorem encode_ne_nil {s : List Char} (h : s ≠ []) : encode s ≠ [] := by
  obtain ⟨c, rest, rfl⟩ := List.exists_cons_of_ne_nil h
  have hoctets : octetsOf c.toNat ≠ [] := by
    unfold octetsOf
    repeat' split
    all_goals exact List.cons_ne_nil _ _
  rw [encode, List.flatMap_cons]
  exact List.append_ne_nil_of_left_ne_nil hoctets _

end FunctionPipeline.Utf8

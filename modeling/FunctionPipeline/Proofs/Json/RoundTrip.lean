import FunctionPipeline.Proofs.Document.RepeatedMerges
import FunctionPipeline.Proofs.Json.Reading
import FunctionPipeline.Proofs.Json.Scalars
import Mathlib.Data.List.Forall2

/-!
JSON documents are read back from their text. Reading goes down with fuel, so each text is read with
fuel for its length, whatever stands behind it; a list and an object give their parts what is left.
-/

namespace FunctionPipeline.Json

/-- A JSON document: what JSON text can write, with finite numbers and no key twice. -/
structure IsDocument (v : Value) : Prop where
  value : IsValue v
  finite : v.hasFiniteNumbers = true
  keyed : v.isWellKeyed = true

/-- A text is read as a value in front of whatever a number does not go on with. It begins with
nothing that is passed over, and with nothing that ends a list. -/
structure Denotes (text : List Char) (v : Value) : Prop where
  head : ∃ c rest, text = c :: rest ∧ isJsonBlank c = false ∧ c ≠ ']'
  reads {fuel : Nat} {rest : List Char} : Stops rest → 2 * text.length ≤ fuel →
    value fuel (text ++ rest) = .ok (v, rest)

section Blanks

variable {c : Char} {rest : List Char}

theorem skipBlank_cons (h : isJsonBlank c = false) : skipBlank (c :: rest) = c :: rest := by
  simp [skipBlank, h]

theorem skipBlank_blank (h : isJsonBlank c = true) : skipBlank (c :: rest) = skipBlank rest := by
  simp [skipBlank, h]

end Blanks

section Scalars

/-- What begins with no quote and no bracket is a word or a number. -/
theorem denotes_scalar {c : Char} {more : List Char} {v : Value}
    (hhead : isJsonBlank c = false ∧ c ∉ [']', '"', '[', '\x7b'])
    (h : ∀ {rest}, Stops rest → scalar (c :: more ++ rest) = .ok (v, rest)) :
    Denotes (c :: more) v := by
  obtain ⟨hblank, hbracket⟩ := hhead
  simp only [List.mem_cons, List.not_mem_nil, or_false, not_or] at hbracket
  obtain ⟨hclose, hquote, hlist, hobject⟩ := hbracket
  refine ⟨⟨c, more, rfl, hblank, hclose⟩, fun {fuel rest} hrest hfuel => ?_⟩
  obtain ⟨fuel, rfl⟩ : ∃ f, fuel = f + 1 := ⟨fuel - 1, by simp at hfuel; omega⟩
  rw [value.eq_def]
  simp only [List.cons_append]
  split
  next heq => exact absurd (List.cons.inj heq).1 hquote
  next heq => exact absurd (List.cons.inj heq).1 hlist
  next heq => exact absurd (List.cons.inj heq).1 hobject
  next => exact h hrest

theorem denotes_word {word : String} {v : Value} (hword : (word, v) ∈ words.take 3) :
    Denotes word.toList v := by
  simp only [words, List.take_succ_cons, List.take_zero, List.mem_cons, Prod.mk.injEq,
    List.not_mem_nil, or_false] at hword
  rcases hword with ⟨rfl, rfl⟩ | ⟨rfl, rfl⟩ | ⟨rfl, rfl⟩
  all_goals exact denotes_scalar ⟨rfl, by decide⟩ fun _ => rfl

/-- A number begins with a digit or a sign. -/
theorem number_head {d : Char} (hd : d.isDigit = true ∨ d = '-') :
    isJsonBlank d = false ∧ d ∉ [']', '"', '[', '\x7b'] := by
  have hmark : d ∈ Numeral.marks := by
    rcases hd with hd | rfl
    · exact Numeral.mem_marks_of_isDigit hd
    · decide
  have hall : ∀ c ∈ Numeral.marks,
      decide (isJsonBlank c = false ∧ c ∉ [']', '"', '[', '\x7b']) = true :=
    List.all_eq_true.mp (by decide)
  exact of_decide_eq_true (hall d hmark)

theorem denotes_int {i : Int} (hshort : isLongInteger i = false) :
    Denotes (toString i).toList (.int i) := by
  obtain ⟨c, more, htext, hc⟩ :
      ∃ c more, (toString i).toList = c :: more ∧ (c.isDigit = true ∨ c = '-') := by
    rw [toList_toString]
    by_cases hneg : i < 0
    · rw [if_pos hneg]
      exact ⟨'-', _, rfl, Or.inr rfl⟩
    · rw [if_neg hneg]
      obtain ⟨d, more, hdigits⟩ := List.exists_cons_of_ne_nil (@Nat.toDigits_ne_nil i.natAbs 10)
      exact ⟨d, more, hdigits, Or.inl (areDigits_toDigits i.natAbs d (by simp [hdigits]))⟩
  have hread {rest : List Char} (h : Stops rest) := scalar_int hshort h
  rw [htext] at hread ⊢
  exact denotes_scalar (number_head hc) hread

theorem denotes_float (negative : Bool) (rank : Fin Binary64.rankCount) :
    Denotes (NumberStyle.json.text (.finite negative rank)).toList (.float (.finite negative rank)) := by
  obtain ⟨c, more, htext, hc⟩ : ∃ c more,
      (NumberStyle.json.text (.finite negative rank)).toList = c :: more ∧
        (c.isDigit = true ∨ c = '-') := by
    obtain ⟨d, more, hdigits, hd⟩ := (NumberStyle.writes_magnitude rank).exists_head
    rw [NumberStyle.text, String.toList_append, hdigits]
    cases negative with
    | false => exact ⟨d, more, rfl, Or.inl hd⟩
    | true => exact ⟨'-', d :: more, rfl, Or.inr rfl⟩
  have hread {rest : List Char} (h : Stops rest) := scalar_float negative rank h
  rw [htext] at hread ⊢
  exact denotes_scalar (number_head hc) hread

theorem denotes_str (s : String) : Denotes (stringLiteral s).toList (.str s) := by
  have hhead : (stringLiteral s).toList = '"' :: (s.toList.flatMap writtenChar ++ ['"']) := by
    simp [stringLiteral]
  refine ⟨⟨_, _, hhead, rfl, by decide⟩, fun {fuel rest} _ hfuel => ?_⟩
  obtain ⟨fuel, rfl⟩ : ∃ f, fuel = f + 1 := ⟨fuel - 1, by simp [hhead] at hfuel; omega⟩
  obtain ⟨body, htext, hbody⟩ := string?_stringLiteral s rest
  rw [htext, value, hbody]

end Scalars

section Containers

variable {texts : List String} {rest : List Char} {fuel : Nat}

theorem toList_joined_cons (text next : String) (texts : List String) :
    (joined ", " (text :: next :: texts)).toList =
      text.toList ++ ',' :: ' ' :: (joined ", " (next :: texts)).toList := by
  simp [joined]

/-- The first of several texts is the beginning of them all. -/
theorem exists_joined {text : String} {c : Char} {more : List Char} (h : text.toList = c :: more)
    (texts : List String) : ∃ tail, (joined ", " (text :: texts)).toList = c :: tail := by
  cases texts with
  | nil => exact ⟨more, h⟩
  | cons next texts =>
      rw [toList_joined_cons, h]
      exact ⟨more ++ ',' :: ' ' :: (joined ", " (next :: texts)).toList, rfl⟩

/-- What stands after a comma. -/
theorem skipBlank_joined {text : String} {c : Char} {more : List Char} (h : text.toList = c :: more)
    (hblank : isJsonBlank c = false) (texts : List String) (rest : List Char) :
    skipBlank (' ' :: ((joined ", " (text :: texts)).toList ++ rest)) =
      (joined ", " (text :: texts)).toList ++ rest := by
  obtain ⟨tail, hhead⟩ := exists_joined h texts
  rw [skipBlank_blank rfl, hhead]
  exact skipBlank_cons hblank

/-- Items are read up to the closing bracket. -/
theorem items_joined {text : String} {v : Value} {vs : List Value} (hv : Denotes text.toList v)
    (hvs : List.Forall₂ (fun v text => Denotes text.toList v) vs texts)
    (hfuel : 2 * (joined ", " (text :: texts)).toList.length + 1 ≤ fuel) :
    items fuel ((joined ", " (text :: texts)).toList ++ ']' :: rest) = .ok (v :: vs, rest) := by
  obtain ⟨fuel, rfl⟩ : ∃ f, fuel = f + 1 := ⟨fuel - 1, by omega⟩
  induction hvs generalizing text v fuel with
  | nil =>
      change 2 * text.toList.length + 1 ≤ fuel + 1 at hfuel
      have hfirst : value fuel (text.toList ++ ']' :: rest) = .ok (v, ']' :: rest) :=
        hv.reads (stops_cons (by decide)) (by omega)
      have hclose : skipBlank (']' :: rest) = ']' :: rest := skipBlank_cons rfl
      rw [joined, items, hfirst]
      simp only [bind, Except.bind, hclose]
      rfl
  | @cons w next vs texts hnext _ ih =>
      rw [toList_joined_cons] at hfuel ⊢
      simp only [List.length_append, List.length_cons] at hfuel
      obtain ⟨fuel, rfl⟩ : ∃ f, fuel = f + 1 := ⟨fuel - 1, by omega⟩
      have hfirst (rest : List Char) :
          value (fuel + 1) (text.toList ++ ',' :: rest) = .ok (v, ',' :: rest) :=
        hv.reads (stops_cons (by decide)) (by omega)
      have hcomma (rest : List Char) : skipBlank (',' :: rest) = ',' :: rest := skipBlank_cons rfl
      obtain ⟨c, more, hhead, hblank, -⟩ := hnext.head
      rw [List.append_assoc, List.cons_append, List.cons_append, items, hfirst]
      simp only [bind, Except.bind, hcomma, skipBlank_joined hhead hblank]
      rw [ih hnext fuel (by omega)]
      rfl

theorem denotes_list {vs : List Value}
    (h : List.Forall₂ (fun v text => Denotes text.toList v) vs texts) :
    Denotes ('[' :: ((joined ", " texts).toList ++ [']'])) (.list vs) := by
  refine ⟨⟨_, _, rfl, rfl, by decide⟩, fun {fuel rest} _ hfuel => ?_⟩
  simp only [List.length_cons, List.length_append, List.length_nil] at hfuel
  obtain ⟨fuel, rfl⟩ : ∃ f, fuel = f + 1 := ⟨fuel - 1, by omega⟩
  rw [List.cons_append, List.append_assoc, List.singleton_append]
  cases h with
  | nil => rfl
  | @cons v text vs texts hv hvs =>
      obtain ⟨c, more, htext, hblank, hclose⟩ := hv.head
      obtain ⟨tail, hhead⟩ := exists_joined htext texts
      have hitems : items fuel ((joined ", " (text :: texts)).toList ++ ']' :: rest) =
          .ok (v :: vs, rest) := items_joined hv hvs (by omega)
      rw [hhead, List.cons_append] at hitems ⊢
      rw [value, skipBlank_cons hblank]
      split
      next heq => exact absurd (List.cons.inj heq).1 hclose
      next =>
        rw [hitems]
        rfl

/-- A member's text: its name, and what the value under it is read from. -/
def IsMember (e : Value × Value) (text : String) : Prop :=
  ∃ name part v, e = (.str name, v) ∧ text = stringLiteral name ++ ": " ++ part ∧
    Denotes part.toList v

theorem IsMember.head {text : String} {e : Value × Value} (h : IsMember e text) :
    ∃ more, text.toList = '"' :: more := by
  obtain ⟨name, part, v, -, rfl, -⟩ := h
  simp [stringLiteral]

/-- A member in front of what ends a value is read, and what follows it looked at. -/
theorem members_member {text : String} {e : Value × Value} (h : IsMember e text) (before : Entries)
    {c : Char} (hc : c ∈ [',', ']', '\x7d']) (rest : List Char)
    (hfuel : 2 * text.toList.length ≤ fuel) :
    members (fuel + 1) before (text.toList ++ c :: rest) =
      match c :: rest with
      | '\x7d' :: rest => .ok (Entries.put before e.1 e.2, rest)
      | ',' :: rest => members fuel (Entries.put before e.1 e.2) (skipBlank rest)
      | _ => .error .malformed := by
  obtain ⟨name, part, v, rfl, rfl, hpart⟩ := h
  simp only [String.toList_append, List.append_assoc, List.length_append] at hfuel ⊢
  obtain ⟨body, htext, hbody⟩ :=
    string?_stringLiteral name (": ".toList ++ (part.toList ++ c :: rest))
  obtain ⟨d, more, hhead, hblank, -⟩ := hpart.head
  have hcolon : skipBlank (": ".toList ++ (part.toList ++ c :: rest)) =
      ':' :: ' ' :: (part.toList ++ c :: rest) := skipBlank_cons rfl
  have hspace : skipBlank (' ' :: (part.toList ++ c :: rest)) = part.toList ++ c :: rest := by
    rw [skipBlank_blank rfl, hhead]
    exact skipBlank_cons hblank
  have hvalue : value fuel (part.toList ++ c :: rest) = .ok (v, c :: rest) :=
    hpart.reads (stops_cons hc) (by omega)
  have hafter : skipBlank (c :: rest) = c :: rest := by
    have hall : ∀ c ∈ [',', ']', '\x7d'], decide (isJsonBlank c = false) = true :=
      List.all_eq_true.mp (by decide)
    exact skipBlank_cons (of_decide_eq_true (hall c hc))
  rw [htext, members, hbody]
  simp only [hcolon, hspace, hvalue, bind, Except.bind, hafter]
  rfl

/-- Members are read up to the closing brace. -/
theorem members_joined {text : String} {e : Value × Value} {es : Entries} (he : IsMember e text)
    (hes : List.Forall₂ IsMember es texts) (before : Entries)
    (hfuel : 2 * (joined ", " (text :: texts)).toList.length + 1 ≤ fuel) :
    members fuel before ((joined ", " (text :: texts)).toList ++ '\x7d' :: rest) =
      .ok ((e :: es).foldl (fun es e => Entries.put es e.1 e.2) before, rest) := by
  obtain ⟨fuel, rfl⟩ : ∃ f, fuel = f + 1 := ⟨fuel - 1, by omega⟩
  induction hes generalizing text e before fuel with
  | nil =>
      change 2 * text.toList.length + 1 ≤ fuel + 1 at hfuel
      rw [joined, members_member he before (by decide) rest (by omega)]
      rfl
  | @cons w next es texts hnext _ ih =>
      rw [toList_joined_cons] at hfuel ⊢
      simp only [List.length_append, List.length_cons] at hfuel
      obtain ⟨fuel, rfl⟩ : ∃ f, fuel = f + 1 := ⟨fuel - 1, by omega⟩
      obtain ⟨more, hhead⟩ := hnext.head
      rw [List.append_assoc, List.cons_append, List.cons_append,
        members_member he before (by decide) _ (by omega)]
      simp only [skipBlank_joined hhead rfl]
      rw [ih hnext _ fuel (by omega)]
      rfl

theorem denotes_object {es : Entries} (h : List.Forall₂ IsMember es texts)
    (hkeys : ∀ e ∈ es, ∃ name, e.1 = .str name) (hdistinct : (Entries.keys es).Nodup) :
    Denotes ('\x7b' :: ((joined ", " texts).toList ++ ['\x7d'])) (.object es) := by
  refine ⟨⟨_, _, rfl, rfl, by decide⟩, fun {fuel rest} _ hfuel => ?_⟩
  simp only [List.length_cons, List.length_append, List.length_nil] at hfuel
  obtain ⟨fuel, rfl⟩ : ∃ f, fuel = f + 1 := ⟨fuel - 1, by omega⟩
  rw [List.cons_append, List.append_assoc, List.singleton_append]
  cases h with
  | nil => rfl
  | @cons e text es texts he hes =>
      obtain ⟨more, htext⟩ := he.head
      obtain ⟨tail, hhead⟩ := exists_joined htext texts
      have hmembers : members fuel [] ((joined ", " (text :: texts)).toList ++ '\x7d' :: rest) =
          .ok ((e :: es).foldl (fun es e => Entries.put es e.1 e.2) [], rest) :=
        members_joined he hes [] (by omega)
      have hsame := Entries.ofList_of_distinct hdistinct hkeys
      rw [Entries.ofList] at hsame
      rw [hhead, List.cons_append, hsame] at hmembers
      rw [hhead, List.cons_append, value, skipBlank_cons rfl]
      split
      next heq => exact absurd (List.cons.inj heq).1 (by decide)
      next =>
        rw [hmembers]
        rfl

end Containers

section Documents

theorem writeAll_ok {otherwise : Otherwise} {vs : List Value} {texts : List String}
    (h : writeAll otherwise vs = .ok texts) :
    List.Forall₂ (fun v text => write otherwise v = .ok text) vs texts := by
  induction vs generalizing texts with
  | nil =>
      cases h
      exact .nil
  | cons v vs ih =>
      obtain ⟨text, htext, hrest⟩ := ok_of_bind h
      obtain ⟨others, hothers, hend⟩ := ok_of_bind hrest
      cases hend
      exact .cons htext (ih hothers)

theorem writeEntries_ok {otherwise : Otherwise} {es : Entries} {texts : List String}
    (h : writeEntries otherwise es = .ok texts) :
    List.Forall₂ (fun e text => ∃ key part, keyText e.1 = .ok key ∧ write otherwise e.2 = .ok part ∧
      text = stringLiteral key ++ ": " ++ part) es texts := by
  induction es generalizing texts with
  | nil =>
      cases h
      exact .nil
  | cons e es ih =>
      obtain ⟨k, v⟩ := e
      obtain ⟨key, hkey, hpart⟩ := ok_of_bind h
      obtain ⟨part, hwrite, hrest⟩ := ok_of_bind hpart
      obtain ⟨others, hothers, hend⟩ := ok_of_bind hrest
      cases hend
      exact .cons ⟨key, part, hkey, hwrite, rfl⟩ (ih hothers)

theorem isMember_of_written {e : Value × Value} {text : String}
    (hkey : ∃ name, e.1 = .str name)
    (hdenotes : ∀ {text : String}, write .refuse e.2 = .ok text → Denotes text.toList e.2)
    (h : ∃ key part, keyText e.1 = .ok key ∧ write .refuse e.2 = .ok part ∧
      text = stringLiteral key ++ ": " ++ part) : IsMember e text := by
  obtain ⟨k, v⟩ := e
  obtain ⟨name, rfl⟩ := hkey
  obtain ⟨key, part, hkey, hpart, rfl⟩ := h
  cases hkey
  exact ⟨name, part, v, rfl, rfl, hdenotes hpart⟩

theorem nodup_keys {es : Entries} (hkeys : ∀ e ∈ es, ∃ name, e.1 = .str name)
    (hdistinct : Entries.Distinct es) : (Entries.keys es).Nodup := by
  refine List.Pairwise.imp_of_mem (fun {k l} hk _ hne => ?_) hdistinct
  rintro rfl
  obtain ⟨e, he, rfl⟩ := List.mem_map.mp hk
  obtain ⟨name, hname⟩ := hkeys e he
  rw [hname, Value.str_equals_self] at hne
  cases hne

/-- What is written for a document is read as that document. -/
theorem denotes_of_write {v : Value} (h : IsDocument v) {text : String}
    (hwrite : write .refuse v = .ok text) : Denotes text.toList v := by
  obtain ⟨hvalue, hfinite, hkeyed⟩ := h
  induction hvalue generalizing text with
  | null =>
      cases hwrite
      exact denotes_word (by simp [words])
  | bool b =>
      cases hwrite
      cases b
      · exact denotes_word (by simp [words])
      · exact denotes_word (by simp [words])
  | int i =>
      rw [write, shownInteger] at hwrite
      split at hwrite
      next => cases hwrite
      next hshort =>
        cases hwrite
        exact denotes_int (Bool.eq_false_iff.mpr hshort)
  | float x =>
      cases hwrite
      cases x with
      | finite negative rank => exact denotes_float negative rank
      | infinite => cases hfinite
      | nan => cases hfinite
  | str s =>
      cases hwrite
      exact denotes_str s
  | @list vs hvalues ih =>
      obtain ⟨texts, htexts, hend⟩ := ok_of_bind hwrite
      cases hend
      have hparts : ∀ v ∈ vs, ∀ {text : String}, write .refuse v = .ok text →
          Denotes text.toList v := fun v hv _ hpart =>
        ih v hv hpart (Value.allFiniteNumbers_iff.mp hfinite v hv)
          (Value.allWellKeyed_iff.mp hkeyed v hv)
      have hall := ((List.forall₂_and_left vs texts).mpr ⟨hparts, writeAll_ok htexts⟩).imp
        fun _ _ h => h.1 h.2
      simpa using denotes_list hall
  | @object es hkeys hvalues ih =>
      obtain ⟨texts, htexts, hend⟩ := ok_of_bind hwrite
      cases hend
      have hentries := Entries.isWellKeyed_iff.mp hkeyed
      have hparts : ∀ e ∈ es, ∀ {text : String}, write .refuse e.2 = .ok text →
          Denotes text.toList e.2 := fun e he _ hpart =>
        ih e he hpart (Value.entriesFiniteNumbers_iff.mp hfinite e he) (hentries.2.2 e he)
      have hall := ((List.forall₂_and_left es texts).mpr
        ⟨hparts, (List.forall₂_and_left es texts).mpr ⟨hkeys, writeEntries_ok htexts⟩⟩).imp
          fun _ _ h => isMember_of_written h.2.1 h.1 h.2.2
      simpa using denotes_object hall hkeys (nodup_keys hkeys hentries.2.1)

/-- A document is read back from the text that is written for it. -/
theorem read_of_write {v : Value} (h : IsDocument v) {text : String}
    (hwrite : write .refuse v = .ok text) : read text.toList = .ok v := by
  have hdenotes := denotes_of_write h hwrite
  obtain ⟨c, more, hhead, hblank, -⟩ := hdenotes.head
  have hskip : skipBlank text.toList = text.toList := by
    rw [hhead]
    exact skipBlank_cons hblank
  have hvalue : value (2 * text.toList.length + 2) text.toList = .ok (v, []) := by
    have hstops : Stops [] := fun _ hc => by cases hc
    have hfuel : 2 * text.toList.length ≤ 2 * text.toList.length + 2 := by omega
    have hreads := hdenotes.reads hstops hfuel
    rwa [List.append_nil] at hreads
  rw [read, hskip, hvalue]
  rfl

theorem exists_writeAll {vs : List Value} (h : ∀ v ∈ vs, ∃ text, write .refuse v = .ok text) :
    ∃ texts, writeAll .refuse vs = .ok texts := by
  induction vs with
  | nil => exact ⟨[], rfl⟩
  | cons v vs ih =>
      obtain ⟨⟨text, htext⟩, hvs⟩ := List.forall_mem_cons.mp h
      obtain ⟨texts, htexts⟩ := ih hvs
      refine ⟨text :: texts, ?_⟩
      rw [writeAll, htext, htexts]
      rfl

def IsWritten (e : Value × Value) : Prop :=
  (∃ name, e.1 = .str name) ∧ ∃ text, write .refuse e.2 = .ok text

/-- An object is written if its entries are. -/
theorem write_object {es : Entries} (h : ∀ e ∈ es, IsWritten e) :
    ∃ text, write .refuse (.object es) = .ok text := by
  have hall : ∃ texts, writeEntries .refuse es = .ok texts := by
    induction es with
    | nil => exact ⟨[], rfl⟩
    | cons e es ih =>
        obtain ⟨⟨⟨name, hname⟩, text, htext⟩, hes⟩ := List.forall_mem_cons.mp h
        obtain ⟨texts, htexts⟩ := ih hes
        obtain ⟨k, v⟩ := e
        obtain rfl : k = .str name := hname
        simp only [writeEntries, keyText, htext, htexts, bind, Except.bind, pure, Except.pure]
        exact ⟨_, rfl⟩
  obtain ⟨texts, htexts⟩ := hall
  simp only [write, htexts, bind, Except.bind, pure, Except.pure]
  exact ⟨_, rfl⟩

/-- A document has a text unless an integer in it has too many digits. -/
theorem exists_write {v : Value} (h : IsValue v) (hshort : v.hasLongInteger = false) :
    ∃ text, write .refuse v = .ok text := by
  induction h with
  | null => exact ⟨_, rfl⟩
  | bool b => exact ⟨_, rfl⟩
  | float x => exact ⟨_, rfl⟩
  | str s => exact ⟨_, rfl⟩
  | int i => exact ⟨toString i, if_neg (by simpa [Value.hasLongInteger] using hshort)⟩
  | @list vs _ ih =>
      obtain ⟨texts, htexts⟩ := exists_writeAll fun v hv =>
        ih v hv (Value.areShort_iff.mp hshort v hv)
      rw [write, htexts]
      exact ⟨_, rfl⟩
  | object hkeys _ ih =>
      exact write_object fun e he => ⟨hkeys e he, ih e he (Entries.IsShort.value hshort he)⟩

end Documents

end FunctionPipeline.Json

import FunctionPipeline.Proofs.Document.Identity
import FunctionPipeline.Proofs.Json.RoundTrip
import FunctionPipeline.Proofs.Text.Octets
import FunctionPipeline.Proofs.Text.Pieces
import FunctionPipeline.SourceMap.Inline
import Mathlib.Data.List.TakeDrop
import Mathlib.Data.List.TakeWhile
import Mathlib.Tactic.SplitIfs

/-!
The comments of a text that hold a source map. The pattern of a comment is stated apart from how it
is looked for, and so is a search from left to right that goes on behind each comment it finds. A
comment may be begun again inside another one, in the value of its character set parameter, but then
both have the same payload; so looking at every place of a text finds the same last payload.
-/

namespace FunctionPipeline.SourceMap

inductive IsCharset : List Char → Prop
  | absent : IsCharset []
  | present {value : List Char} (hnonempty : value ≠ [])
      (hvalue : ∀ c ∈ value, c ≠ ';' ∧ c ≠ ',') : IsCharset (";charset=".toList ++ value)

inductive IsLineEnd : List Char → Prop
  | text : IsLineEnd []
  | line (rest : List Char) : IsLineEnd ('\n' :: rest)

/-- A comment in front of a text: two slashes and a mark, an address with a payload in base 64, and
white space up to the end of a line. -/
inductive Matches : List Char → List Char → List Char → Prop
  | comment {mark : Char} {blanks charset payload ends rest : List Char}
      (hmark : mark = '#' ∨ mark = '@') (hblanks : ∀ c ∈ blanks, isBlank c = true)
      (hcharset : IsCharset charset) (hnonempty : payload ≠ [])
      (hpayload : ∀ c ∈ payload, isPayload c = true) (hends : ∀ c ∈ ends, isBlank c = true)
      (hrest : IsLineEnd rest) :
      Matches ('/' :: '/' :: mark :: (blanks ++ ("sourceMappingURL=data:application/json".toList ++
        (charset ++ (";base64,".toList ++ (payload ++ (ends ++ rest))))))) payload rest

/-- The payloads found from left to right; a search goes on behind the comment that it found. -/
inductive Finds : List Char → List (List Char) → Prop
  | nil : Finds [] []
  | skip {c : Char} {s : List Char} {found : List (List Char)}
      (hnone : ∀ payload rest, ¬ Matches (c :: s) payload rest) (h : Finds s found) :
      Finds (c :: s) found
  | take {s payload rest : List Char} {found : List (List Char)} (hmatch : Matches s payload rest)
      (h : Finds rest found) : Finds s (payload :: found)

section Characters

theorem isPayload_bounds {c : Char} (h : isPayload c = true) : 43 ≤ c.toNat ∧ c.toNat ≤ 122 := by
  rw [isPayload, Bool.or_eq_true, decide_eq_true_eq] at h
  rcases h with hdigit | rfl
  · rw [Base64.digit?] at hdigit
    split_ifs at hdigit <;> first | omega | cases hdigit
  · decide

theorem not_isPayload_of_isBlank {c : Char} (h : isBlank c = true) : isPayload c = false := by
  rw [Bool.eq_false_iff]
  intro hpayload
  have hbounds := isPayload_bounds hpayload
  simp only [isBlank, Bool.or_eq_true, Bool.and_eq_true, decide_eq_true_eq, beq_iff_eq] at h
  omega

end Characters

section Places

variable {s payload rest : List Char}

/-- A line ends here if white space goes on to the end of a line. -/
theorem endsHere_iff :
    endsHere s = true ↔
      ∃ ends rest, (∀ c ∈ ends, isBlank c = true) ∧ IsLineEnd rest ∧ s = ends ++ rest := by
  unfold endsHere
  simp only [Bool.or_eq_true, List.contains_iff_mem, List.isEmpty_iff]
  constructor
  · rintro (hline | hend)
    · obtain ⟨ends, more, hsplit⟩ := List.append_of_mem hline
      have hblank : ∀ c ∈ s.takeWhile isBlank, isBlank c = true := fun c => List.mem_takeWhile_imp
      refine ⟨ends, '\n' :: (more ++ s.dropWhile isBlank), fun c hc => hblank c ?_, .line _, ?_⟩
      · rw [hsplit]
        exact List.mem_append_left _ hc
      · rw [← List.cons_append, ← List.append_assoc, ← hsplit, List.takeWhile_append_dropWhile]
    · refine ⟨s.takeWhile isBlank, [], fun c => List.mem_takeWhile_imp, .text, ?_⟩
      rw [← hend]
      exact (List.prefix_iff_eq_append.mp (List.takeWhile_prefix isBlank)).symm
  · rintro ⟨ends, rest, hblank, hrest, rfl⟩
    cases hrest with
    | text =>
        right
        rw [takeWhile_append_of_head hblank rfl, List.drop_left]
    | line rest =>
        left
        rw [List.takeWhile_append_of_pos hblank, List.takeWhile_cons_of_pos rfl]
        exact List.mem_append_right _ List.mem_cons_self

theorem skipCharset_append {charset : List Char} (h : IsCharset charset) (t : List Char) :
    skipCharset (charset ++ (";base64,".toList ++ t)) = ";base64,".toList ++ t := by
  unfold skipCharset
  cases h with
  | absent =>
      have hother : afterWord? ";charset=" ([] ++ (";base64,".toList ++ t)) = none := by
        rw [Option.eq_none_iff_forall_ne_some]
        intro rest hrest
        have heq := afterWord?_eq_some_iff.mp hrest
        simp at heq
      rw [hother]
      rfl
  | @present value hnonempty hvalue =>
      have hword : afterWord? ";charset="
          (";charset=".toList ++ value ++ (";base64,".toList ++ t)) =
            some (value ++ (";base64,".toList ++ t)) :=
        afterWord?_eq_some_iff.mpr (List.append_assoc _ _ _)
      have htaken : (value ++ (";base64,".toList ++ t)).takeWhile (fun c => c ≠ ';' && c ≠ ',') =
          value := takeWhile_append_of_head (by simpa using hvalue) rfl
      have hempty : value.isEmpty = false := by simp [hnonempty]
      rw [hword]
      simp only [htaken, hempty, Bool.false_eq_true, if_false, List.drop_left]

theorem exists_charset (s : List Char) :
    ∃ charset, IsCharset charset ∧ s = charset ++ skipCharset s := by
  unfold skipCharset
  split
  next rest hword =>
    obtain rfl := afterWord?_eq_some_iff.mp hword
    dsimp only
    split
    next => exact ⟨[], .absent, rfl⟩
    next hempty =>
      have hvalue : ∀ c ∈ rest.takeWhile (fun c => c ≠ ';' && c ≠ ','), c ≠ ';' ∧ c ≠ ',' := by
        intro c hc
        simpa using List.mem_takeWhile_imp hc
      refine ⟨_, .present (by simpa using hempty) hvalue, ?_⟩
      rw [List.append_assoc]
      congr 1
      exact (List.prefix_iff_eq_append.mp (List.takeWhile_prefix _)).symm
  next => exact ⟨[], .absent, rfl⟩

/-- The payload of a comment goes on as long as it can. -/
theorem payload_ends {ends : List Char} (hends : ∀ c ∈ ends, isBlank c = true)
    (hrest : IsLineEnd rest) : ((ends ++ rest).head?.map isPayload).getD false = false := by
  cases ends with
  | nil => cases hrest <;> rfl
  | cons c ends => exact not_isPayload_of_isBlank (hends c List.mem_cons_self)

/-- A place has a payload just if a comment stands there. -/
theorem Matches.payloadAt? (h : Matches s payload rest) : payloadAt? s = some payload := by
  cases h with
  | @comment mark blanks charset payload ends rest hmark hblanks hcharset hnonempty hpayload hends
      hrest =>
    have hstart (t : List Char) : (afterWord? "//#" ('/' :: '/' :: mark :: t)).or
        (afterWord? "//@" ('/' :: '/' :: mark :: t)) = some t := by
      rcases hmark with rfl | rfl
      · rfl
      · rfl
    have hblank (t : List Char) :
        (blanks ++ ("sourceMappingURL=data:application/json".toList ++ t)).dropWhile isBlank =
          "sourceMappingURL=data:application/json".toList ++ t := by
      rw [List.dropWhile_append_of_pos hblanks]
      rfl
    have hword (word : String) (t : List Char) : afterWord? word (word.toList ++ t) = some t :=
      afterWord?_eq_some_iff.mpr rfl
    have htaken := takeWhile_append_of_head hpayload (payload_ends hends hrest)
    have hempty : payload.isEmpty = false := by simp [hnonempty]
    have hend : endsHere (ends ++ rest) = true := endsHere_iff.mpr ⟨ends, rest, hends, hrest, rfl⟩
    simp only [SourceMap.payloadAt?, Option.bind_eq_bind, hstart, Option.bind_some, hblank, hword,
      skipCharset_append hcharset, htaken, hempty, List.drop_left, hend, Bool.not_true,
      Bool.or_self, Bool.false_eq_true, if_false]

theorem exists_matches (h : payloadAt? s = some payload) : ∃ rest, Matches s payload rest := by
  simp only [payloadAt?, Option.bind_eq_bind, Option.bind_eq_some_iff] at h
  obtain ⟨t, hstart, u, hword, v, hbase, hpayload⟩ := h
  obtain ⟨mark, hmark, rfl⟩ : ∃ mark, (mark = '#' ∨ mark = '@') ∧ s = '/' :: '/' :: mark :: t := by
    rcases Option.or_eq_some_iff.mp hstart with hfirst | ⟨-, hsecond⟩
    · exact ⟨'#', Or.inl rfl, afterWord?_eq_some_iff.mp hfirst⟩
    · exact ⟨'@', Or.inr rfl, afterWord?_eq_some_iff.mp hsecond⟩
  obtain ⟨charset, hcharset, hu⟩ := exists_charset u
  rw [afterWord?_eq_some_iff] at hword hbase
  split at hpayload
  next => cases hpayload
  next hguard =>
    cases hpayload
    simp only [Bool.or_eq_true, Bool.not_eq_true', not_or, List.isEmpty_iff,
      Bool.not_eq_false] at hguard
    obtain ⟨hnonempty, hend⟩ := hguard
    obtain ⟨ends, rest, hends, hrest, hv⟩ := endsHere_iff.mp hend
    have hsplit : t = t.takeWhile isBlank ++ ("sourceMappingURL=data:application/json".toList ++
        (charset ++ (";base64,".toList ++ (v.takeWhile isPayload ++ (ends ++ rest))))) := by
      rw [← hv, List.prefix_iff_eq_append.mp (List.takeWhile_prefix _), ← hbase, ← hu, ← hword,
        List.takeWhile_append_dropWhile]
    refine ⟨rest, ?_⟩
    rw [hsplit]
    exact .comment hmark (fun c => List.mem_takeWhile_imp) hcharset hnonempty
      (fun c => List.mem_takeWhile_imp) hends hrest

end Places

section Last

variable {before : Option (List Char)} {s t payload rest : List Char}

/-- A comment starts with two slashes and a mark. -/
theorem payloadAt?_eq_none
    (h : ∀ mark t, s = '/' :: '/' :: mark :: t → mark ≠ '#' ∧ mark ≠ '@') :
    payloadAt? s = none := by
  rw [Option.eq_none_iff_forall_ne_some]
  intro payload hpayload
  obtain ⟨rest, hmatch⟩ := exists_matches hpayload
  cases hmatch with
  | comment hmark =>
      obtain ⟨hhash, hat⟩ := h _ _ rfl
      exact hmark.elim hhash hat

theorem lastPayload_cons {c : Char} (h : payloadAt? (c :: t) = none) :
    lastPayload before (c :: t) = lastPayload before t := by
  rw [lastPayload, h, Option.none_or]

theorem lastPayload_of_not_mem {u : List Char} (h : '/' ∉ u) (t : List Char) :
    lastPayload before (u ++ t) = lastPayload before t := by
  induction u with
  | nil => rfl
  | cons c u ih =>
      obtain ⟨hc, hu⟩ := not_or.mp (mt List.mem_cons.mpr h)
      have hplace : payloadAt? (c :: (u ++ t)) = none := payloadAt?_eq_none fun mark more heq =>
        absurd (List.cons.inj heq).1.symm hc
      rw [List.cons_append, lastPayload_cons hplace, ih hu]

theorem lastPayload_slash {c : Char} (h : c ≠ '/') (t : List Char) :
    lastPayload before ('/' :: c :: t) = lastPayload before (c :: t) :=
  lastPayload_cons (payloadAt?_eq_none fun _ _ heq =>
    absurd (List.cons.inj (List.cons.inj heq).2).1 h)

theorem lastPayload_word (t : List Char) :
    lastPayload before ("sourceMappingURL=data:application/json".toList ++ t) =
      lastPayload before t := by
  have hword : "sourceMappingURL=data:application/json".toList =
      "sourceMappingURL=data:application".toList ++ ['/'] ++ ['j', 's', 'o', 'n'] := by simp
  rw [hword, List.append_assoc, List.append_assoc, lastPayload_of_not_mem (by simp)]
  exact (lastPayload_slash (by decide) _).trans (lastPayload_of_not_mem (by decide) t)

/-- In a payload there is no mark, and none behind it either. -/
theorem lastPayload_payload (hpayload : ∀ c ∈ payload, isPayload c = true)
    (ht : ∀ c ∈ t.head?, isBlank c = true) :
    lastPayload before (payload ++ t) = lastPayload before t := by
  induction payload with
  | nil => rfl
  | cons c payload ih =>
      have hrest : ∀ d ∈ payload, isPayload d = true := fun d hd => hpayload d (by simp [hd])
      have hplace : payloadAt? (c :: (payload ++ t)) = none := by
        refine payloadAt?_eq_none fun mark more heq => ?_
        obtain ⟨-, htail⟩ := List.cons.inj heq
        match payload with
        | [] =>
            have hslash := ht '/' (by rw [List.nil_append] at htail; rw [htail]; rfl)
            cases hslash
        | [d] =>
            have hmark := ht mark (by
              rw [List.singleton_append] at htail
              rw [(List.cons.inj htail).2]
              rfl)
            constructor <;> rintro rfl <;> cases hmark
        | d :: e :: payload =>
            have hmark : e = mark := (List.cons.inj (List.cons.inj htail).2).1
            have he := hrest e (by simp)
            rw [hmark] at he
            constructor <;> rintro rfl <;> cases he
      rw [List.cons_append, lastPayload_cons hplace, ih hrest]

/-- What stands behind the first semicolon of a text. -/
private theorem behind_semicolon {u v : List Char} (hu : ';' ∉ u) (hv : ';' ∉ v)
    (h : u ++ ';' :: s = v ++ ';' :: t) : s = t := by
  have htaken {w : List Char} (hw : ';' ∉ w) (more : List Char) :
      (w ++ ';' :: more).takeWhile (fun c => c ≠ ';') = w :=
    takeWhile_append_of_head (fun c hc => decide_eq_true fun heq => hw (heq ▸ hc)) rfl
  have hsame : u = v := by rw [← htaken hu s, h, htaken hv t]
  rw [hsame] at h
  exact (List.cons.inj (List.append_cancel_left h)).2

/-- A comment that is begun in the value of a parameter has the payload of the one around it. -/
theorem payloadAt?_charset {value ends : List Char} (hvalue : ∀ c ∈ value, c ≠ ';' ∧ c ≠ ',')
    (hpayload : ∀ c ∈ payload, isPayload c = true) (hends : ∀ c ∈ ends, isBlank c = true)
    (hrest : IsLineEnd rest) {other : List Char}
    (h : payloadAt? (value ++ (";base64,".toList ++ (payload ++ (ends ++ rest)))) = some other) :
    other = payload := by
  obtain ⟨more, hmatch⟩ := exists_matches h
  have hfirst : ';' ∉ value := fun hmem => (hvalue _ hmem).1 rfl
  have hbase : ";base64,".toList = ';' :: "base64,".toList := rfl
  rw [hbase, List.cons_append] at hmatch
  generalize htext : value ++ ';' :: ("base64,".toList ++ (payload ++ (ends ++ rest))) = text
    at hmatch
  cases hmatch with
  | @comment mark blanks charset other ends' more hmark hblanks hcharset hnonempty hother hends'
      hmore =>
    have hheader : ';' ∉ '/' :: '/' :: mark :: (blanks ++
        "sourceMappingURL=data:application/json".toList) := by
      have hmarked : ';' ≠ mark := by
        rcases hmark with rfl | rfl
        · decide
        · decide
      have hblank : ';' ∉ blanks := fun hmem => absurd (hblanks _ hmem) (by decide)
      simp [hmarked, hblank]
    cases hcharset with
    | @present inner =>
        have hbehind : "base64,".toList ++ (payload ++ (ends ++ rest)) =
            "charset=".toList ++ (inner ++ (";base64,".toList ++ (other ++ (ends' ++ more)))) :=
          behind_semicolon hfirst hheader (htext.trans (by simp))
        simp at hbehind
    | absent =>
        have hbehind : "base64,".toList ++ (payload ++ (ends ++ rest)) =
            "base64,".toList ++ (other ++ (ends' ++ more)) :=
          behind_semicolon hfirst hheader (htext.trans (by simp))
        have hsame := List.append_cancel_left hbehind
        rw [← takeWhile_append_of_head hother (payload_ends hends' hmore), ← hsame,
          takeWhile_append_of_head hpayload (payload_ends hends hrest)]

theorem lastPayload_value {value ends : List Char} (hvalue : ∀ c ∈ value, c ≠ ';' ∧ c ≠ ',')
    (hpayload : ∀ c ∈ payload, isPayload c = true) (hends : ∀ c ∈ ends, isBlank c = true)
    (hrest : IsLineEnd rest) :
    lastPayload (some payload) (value ++ (";base64,".toList ++ (payload ++ (ends ++ rest)))) =
      lastPayload (some payload) (";base64,".toList ++ (payload ++ (ends ++ rest))) := by
  induction value with
  | nil => rfl
  | cons c value ih =>
      have hplace : (payloadAt? (c :: value ++ (";base64,".toList ++
          (payload ++ (ends ++ rest))))).or (some payload) = some payload := by
        cases hfound : payloadAt? (c :: value ++ (";base64,".toList ++
            (payload ++ (ends ++ rest)))) with
        | none => rfl
        | some other =>
            rw [payloadAt?_charset hvalue hpayload hends hrest hfound]
            rfl
      rw [List.cons_append] at hplace ⊢
      rw [lastPayload, hplace, ih fun d hd => hvalue d (by simp [hd])]

theorem lastPayload_charset {charset ends : List Char} (hcharset : IsCharset charset)
    (hpayload : ∀ c ∈ payload, isPayload c = true) (hends : ∀ c ∈ ends, isBlank c = true)
    (hrest : IsLineEnd rest) :
    lastPayload (some payload) (charset ++ (";base64,".toList ++ (payload ++ (ends ++ rest)))) =
      lastPayload (some payload) (";base64,".toList ++ (payload ++ (ends ++ rest))) := by
  cases hcharset with
  | absent => rfl
  | present _ hvalue =>
      rw [List.append_assoc, lastPayload_of_not_mem (by simp)]
      exact lastPayload_value hvalue hpayload hends hrest

/-- Behind a comment its payload is the last one found, wherever else in it one is begun. -/
theorem lastPayload_of_matches (h : Matches s payload rest) :
    lastPayload before s = lastPayload (some payload) rest := by
  have hplace := h.payloadAt?
  cases h with
  | @comment mark blanks charset payload ends rest hmark hblanks hcharset hnonempty hpayload hends
      hrest =>
    have hslash : mark ≠ '/' ∧ '/' ∉ mark :: blanks := by
      have hblank : '/' ∉ blanks := fun hmem => absurd (hblanks _ hmem) (by decide)
      rcases hmark with rfl | rfl
      · simp [hblank]
      · simp [hblank]
    have hend : '/' ∉ ends := fun hmem => absurd (hends _ hmem) (by decide)
    have hbehind : ∀ c ∈ (ends ++ rest).head?, isBlank c = true := by
      intro c hc
      cases ends with
      | nil =>
          cases hrest with
          | text => cases hc
          | line => cases hc; rfl
      | cons d ends =>
          cases hc
          exact hends _ List.mem_cons_self
    rw [lastPayload, hplace, Option.some_or, lastPayload_slash hslash.1, ← List.cons_append,
      lastPayload_of_not_mem hslash.2, lastPayload_word,
      lastPayload_charset hcharset hpayload hends hrest, lastPayload_of_not_mem (by simp),
      lastPayload_payload hpayload hbehind, lastPayload_of_not_mem hend]

theorem lastPayload_eq (before : Option (List Char)) (s : List Char) :
    lastPayload before s = (lastPayload none s).or before := by
  induction s generalizing before with
  | nil => rfl
  | cons c s ih => rw [lastPayload, lastPayload, ih, ih ((payloadAt? (c :: s)).or none),
      Option.or_none, Option.or_assoc]

end Last

section Search

variable {s payload rest : List Char} {found : List (List Char)}

theorem Matches.length_lt (h : Matches s payload rest) : rest.length < s.length := by
  cases h
  simp only [List.length_cons, List.length_append]
  omega

/-- A search that finds a last payload finds the one that looking at every place finds. -/
theorem Finds.lastPayload (h : Finds s found) (before : Option (List Char)) :
    lastPayload before s = found.getLast?.or before := by
  induction h generalizing before with
  | nil => rfl
  | skip hnone _ ih =>
      have hplace := Option.eq_none_iff_forall_ne_some.mpr fun payload hpayload =>
        (exists_matches hpayload).elim (hnone payload)
      rw [lastPayload_cons hplace, ih]
  | take hmatch _ ih =>
      rw [lastPayload_of_matches hmatch, ih, List.getLast?_cons]
      cases List.getLast? _ <;> rfl

/-- Every text can be searched. -/
theorem exists_finds (s : List Char) : ∃ found, Finds s found := by
  induction hlength : s.length using Nat.strongRecOn generalizing s with
  | ind n ih =>
      cases s with
      | nil => exact ⟨[], .nil⟩
      | cons c s =>
          by_cases hmatch : ∃ payload rest, Matches (c :: s) payload rest
          · obtain ⟨payload, rest, hmatch⟩ := hmatch
            obtain ⟨found, hfound⟩ := ih rest.length (hlength ▸ hmatch.length_lt) rest rfl
            exact ⟨payload :: found, .take hmatch hfound⟩
          · obtain ⟨found, hfound⟩ := ih s.length (by simp [← hlength]) s rfl
            exact ⟨found, .skip (fun payload rest h => hmatch ⟨payload, rest, h⟩) hfound⟩

def IsLast (s payload : List Char) : Prop :=
  (∃ found, Finds s found) ∧ ∀ found, Finds s found → found.getLast? = some payload

end Search

section Appended

def payloadOf (text : String) : List Char := Base64.encode (Utf8.encode text.toList)

/-- A text with a source map put behind it as a comment of its own, and white space after that. -/
def withMap (before text blanks : String) : String :=
  before ++ "\n//# sourceMappingURL=data:application/json;base64," ++
    String.ofList (payloadOf text) ++ blanks

variable {text blanks : String}

theorem matches_appended (htext : text ≠ "") (hblanks : ∀ c ∈ blanks.toList, isBlank c = true) :
    Matches ("//# sourceMappingURL=data:application/json;base64,".toList ++
      (payloadOf text ++ blanks.toList)) (payloadOf text) [] := by
  have hnonempty : payloadOf text ≠ [] := by
    apply Base64.encode_ne_nil
    apply Utf8.encode_ne_nil
    simpa using htext
  have hpayload : ∀ c ∈ payloadOf text, isPayload c = true := by
    intro c hc
    simpa [isPayload] using Base64.mem_encode hc
  have hspace : ∀ c ∈ [' '], isBlank c = true := by simp [isBlank]
  have hmatch : Matches _ (payloadOf text) [] :=
    .comment (Or.inl rfl) hspace .absent hnonempty hpayload hblanks .text
  rw [List.append_nil] at hmatch
  have hword : "//# sourceMappingURL=data:application/json;base64,".toList =
      '/' :: '/' :: '#' :: ([' '] ++ ("sourceMappingURL=data:application/json".toList ++
        ([] ++ ";base64,".toList))) := by simp
  rw [hword]
  simpa using hmatch

theorem lastPayload_append {s payload : List Char} (h : lastPayload none s = some payload)
    (first : List Char) (before : Option (List Char)) :
    lastPayload before (first ++ s) = some payload := by
  induction first generalizing before with
  | nil => rw [List.nil_append, lastPayload_eq, h, Option.some_or]
  | cons c first ih => exact ih _

/-- The map that was put behind a text is the last one, whatever the text is. -/
theorem lastPayload_withMap (before : String) (htext : text ≠ "")
    (hblanks : ∀ c ∈ blanks.toList, isBlank c = true) :
    lastPayload none (withMap before text blanks).toList = some (payloadOf text) := by
  have hcode : (withMap before text blanks).toList = before.toList ++ ['\n'] ++
      ("//# sourceMappingURL=data:application/json;base64,".toList ++
        (payloadOf text ++ blanks.toList)) := by
    simp [withMap]
  rw [hcode]
  exact lastPayload_append (lastPayload_of_matches (matches_appended htext hblanks)) _ none

theorem isLast_withMap (before : String) (htext : text ≠ "")
    (hblanks : ∀ c ∈ blanks.toList, isBlank c = true) :
    IsLast (withMap before text blanks).toList (payloadOf text) := by
  refine ⟨exists_finds _, fun found hfound => ?_⟩
  have hlast := hfound.lastPayload none
  rw [lastPayload_withMap before htext hblanks, Option.or_none] at hlast
  exact hlast.symm

theorem inlineData_withMap (before : String) (htext : text ≠ "")
    (hblanks : ∀ c ∈ blanks.toList, isBlank c = true) :
    inlineData (withMap before text blanks) =
      match Json.read text.toList with
      | .ok v => .ok (some v)
      | .error .malformed => .ok none
      | .error (.tooManyDigits count) => .error (.tooManyDigits count) := by
  have hoctets : (Base64.decode? (payloadOf text)).bind Utf8.decode? = some text.toList := by
    rw [payloadOf, Base64.decode?_encode, Option.bind_some, Utf8.decode?_encode]
  have hpayload := lastPayload_withMap before htext hblanks
  cases hread : Json.read text.toList with
  | ok v => simp only [inlineData, hpayload, Option.bind_some, hoctets, hread]
  | error cause =>
      cases cause <;> simp only [inlineData, hpayload, Option.bind_some, hoctets, hread]

/-- A map that is put behind a text is the one found, whatever other comments the text has: a search
from left to right finds its payload last, and the data is what its JSON text is read as. Every
document whose integers have not too many digits has such a text. -/
theorem appended_map_found (before : String) (hblanks : ∀ c ∈ blanks.toList, isBlank c = true) :
    (∀ {text : String} {m : Value}, Json.read text.toList = .ok m →
      IsLast (withMap before text blanks).toList (payloadOf text) ∧
        inlineData (withMap before text blanks) = .ok (some m)) ∧
    (∀ {text : String} {count : Nat}, Json.read text.toList = .error (.tooManyDigits count) →
      inlineData (withMap before text blanks) = .error (.tooManyDigits count)) ∧
    ∀ {m : Value}, Json.IsDocument m → m.hasLongInteger = false →
      ∃ text, Json.write .refuse m = .ok text ∧
        inlineData (withMap before text blanks) = .ok (some m) := by
  have hnonempty {text : String} (hread : Json.read text.toList ≠ .error .malformed) :
      text ≠ "" := by
    rintro rfl
    exact hread rfl
  have hdata {text : String} {m : Value} (hread : Json.read text.toList = .ok m) :
      inlineData (withMap before text blanks) = .ok (some m) := by
    rw [inlineData_withMap before (hnonempty (by simp [hread])) hblanks, hread]
  refine ⟨fun {text m} hread => ⟨?_, hdata hread⟩, fun {text count} hread => ?_,
    fun {m} hm hshort => ?_⟩
  · exact isLast_withMap before (hnonempty (by simp [hread])) hblanks
  · rw [inlineData_withMap before (hnonempty (by simp [hread])) hblanks, hread]
  · obtain ⟨text, hwrite⟩ := Json.exists_write hm.value hshort
    exact ⟨text, hwrite, hdata (Json.read_of_write hm hwrite)⟩

/-- Here a comment is begun in front of the map, and its character set parameter runs over the end
of its line. -/
theorem appended_map_found_begun :
    inlineData (withMap "//# sourceMappingURL=data:application/json;charset=a"
      "\x7b\"names\": []\x7d" " \n") = .ok (some (.object [(.str "names", .list [])])) ∧
    ∃ text, Json.write .refuse (.object [(.str "names", .list [])]) = .ok text ∧
      inlineData (withMap "//# sourceMappingURL=data:application/json;charset=a" text " \n") =
        .ok (some (.object [(.str "names", .list [])])) := by
  have hblanks : ∀ c ∈ " \n".toList, isBlank c = true := by simp [isBlank]
  have hread : Json.read "\x7b\"names\": []\x7d".toList =
      .ok (.object [(.str "names", .list [])]) := by
    apply ok_of_toOption
    decide +kernel
  have hdocument : Json.IsDocument (.object [(.str "names", .list [])]) := by
    refine ⟨.object (by simp) fun e he => ?_, rfl, rfl⟩
    obtain rfl := List.mem_singleton.mp he
    exact .list (by simp)
  have hfound := appended_map_found "//# sourceMappingURL=data:application/json;charset=a" hblanks
  exact ⟨(hfound.1 hread).2, hfound.2.2 hdocument rfl⟩

end Appended

end FunctionPipeline.SourceMap

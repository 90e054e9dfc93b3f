import FunctionPipeline.Proofs.Files.AtomicWrite

/-!
Atomic writes one after the other, some of which fail. Each works on the tree that those before it
left behind, failed ones included, and on a medium of its own. In the end every file that a
successful write leads to holds what the codec of the last such write gave out, and all other
regular files are as they were at the start. Two things are not as they should be: what a codec
holds back is lost, and a temporary file is left over where the medium cannot clear it away.
-/

namespace FunctionPipeline.FileTree

/-- A write that is asked for, and the medium it meets. -/
structure Write where
  path : Path
  text : String
  encoding : String := usualEncoding
  medium : Medium := {}
  deriving Repr

def write (t : FileTree) (codecs : Codecs) (w : Write) : FileTree × Except Fault Unit :=
  t.writeText w.path w.text w.encoding codecs w.medium

/-- A tree after writes, whether they succeeded or not. -/
def afterWrites (t : FileTree) (codecs : Codecs) : List Write → FileTree
  | [] => t
  | w :: rest => (t.write codecs w).1.afterWrites codecs rest

variable {codecs : Codecs}

theorem afterWrites_append (t : FileTree) (before after : List Write) :
    t.afterWrites codecs (before ++ after) =
      (t.afterWrites codecs before).afterWrites codecs after := by
  induction before generalizing t with
  | nil => rfl
  | cons w rest ih => exact ih (t.write codecs w).1

/-- One of some writes succeeds and leads to a place. -/
inductive SomeLeadsTo (codecs : Codecs) (place : List String) : FileTree → List Write → Prop
  | now {t : FileTree} {w : Write} {rest : List Write} (hok : (t.write codecs w).2 = .ok ())
      (hplace : (t.write codecs w).1.locate w.path = .ok place) :
      SomeLeadsTo codecs place t (w :: rest)
  | later {t : FileTree} {w : Write} {rest : List Write}
      (h : SomeLeadsTo codecs place (t.write codecs w).1 rest) :
      SomeLeadsTo codecs place t (w :: rest)

def someLeadsTo (codecs : Codecs) (place : List String) (t : FileTree) : List Write → Bool
  | [] => false
  | w :: rest =>
      (t.write codecs w).2.toBool &&
          ((t.write codecs w).1.locate w.path).toOption == some place ||
        (t.write codecs w).1.someLeadsTo codecs place rest

theorem someLeadsTo_iff {place : List String} {t : FileTree} {writes : List Write} :
    someLeadsTo codecs place t writes = true ↔ SomeLeadsTo codecs place t writes := by
  have hsucceeds {r : Except Fault Unit} : r.toBool = true ↔ r = .ok () := by
    cases r <;> simp [Except.toBool]
  have hleads {r : Except Fault (List String)} : r.toOption = some place ↔ r = .ok place := by
    cases r <;> simp [Except.toOption]
  induction writes generalizing t with
  | nil => exact ⟨nofun, nofun⟩
  | cons w rest ih =>
      simp only [someLeadsTo, Bool.or_eq_true, Bool.and_eq_true, beq_iff_eq, hsucceeds, hleads, ih]
      constructor
      · rintro (⟨hok, hplace⟩ | hlater)
        · exact .now hok hplace
        · exact .later hlater
      · rintro (⟨hok, hplace⟩ | hlater)
        · exact .inl ⟨hok, hplace⟩
        · exact .inr hlater

instance (place : List String) (t : FileTree) (writes : List Write) :
    Decidable (SomeLeadsTo codecs place t writes) := decidable_of_iff _ someLeadsTo_iff

theorem keepsDirectories_afterWrites (codecs : Codecs) (t : FileTree) (writes : List Write) :
    KeepsDirectories t (t.afterWrites codecs writes) := by
  induction writes generalizing t with
  | nil => exact KeepsDirectories.refl t
  | cons w rest ih =>
      exact (keepsDirectories_writeText t w.path w.text w.encoding codecs w.medium).trans (ih _)

/-- A failed write leaves the regular files that were there. -/
theorem leavesFiles_of_failed {t : FileTree} {w : Write} {cause : Fault}
    (h : (t.write codecs w).2 = .error cause) :
    LeavesFiles t (t.write codecs w).1 w.path w.medium := by
  rcases writeText_ends t w.path w.text w.encoding codecs w.medium with
    ⟨_, _, hleaves⟩ | ⟨_, _, hok, _⟩
  · exact hleaves
  · cases h.symm.trans hok

/-- A successful write puts there what the codec gives out for the text. -/
theorem hasWritten_of_succeeded {t : FileTree} {w : Write}
    (h : (t.write codecs w).2 = .ok ()) :
    ∃ codec octets, codecs.find? w.encoding = some codec ∧
      codec.given w.text.toList = .ok octets ∧
      HasWritten t (t.write codecs w).1 w.path octets := by
  rcases writeText_ends t w.path w.text w.encoding codecs w.medium with
    ⟨cause, hcause, _⟩ | ⟨codec, octets, _, hcodec, hgiven, hwritten⟩
  · cases h.symm.trans hcause
  · exact ⟨codec, octets, hcodec, hgiven, hwritten⟩

/-- A place where there was no regular file may hold the temporary file of a write whose medium does
not clear it away. -/
def MayHoldTemporary (t : FileTree) (writes : List Write) (place : List String) : Prop :=
  t.content? place = none ∧ ∃ w ∈ writes, ¬ w.medium.Clears ∧
    ∃ directory stamp, place = directory ++ [temporaryName w.path.name stamp]

/-- What one write does to a place that it does not lead to. -/
theorem content?_write {t : FileTree} {w : Write} {place : List String}
    (h : (t.write codecs w).2 = .ok () → (t.write codecs w).1.locate w.path ≠ .ok place) :
    (t.write codecs w).1.content? place = t.content? place ∨ MayHoldTemporary t [w] place := by
  cases hend : (t.write codecs w).2 with
  | error cause =>
      rcases leavesFiles_of_failed hend with hsame | ⟨hm, directory, stamp, _, hfree, -, hothers⟩
      · exact Or.inl (hsame place)
      · by_cases hplace : place = directory ++ [temporaryName w.path.name stamp]
        · exact Or.inr ⟨hplace ▸ hfree, w, List.mem_singleton_self w, hm, directory, stamp, hplace⟩
        · exact Or.inl (hothers place hplace)
  | ok =>
      obtain ⟨-, octets, -, -, target, hlocate, -, hothers⟩ := hasWritten_of_succeeded hend
      refine Or.inl (hothers place ?_)
      rintro rfl
      exact h hend hlocate

/-- What any number of writes does to a place to which none of them leads. -/
theorem content?_afterWrites {t : FileTree} {writes : List Write} {place : List String}
    (h : ¬ SomeLeadsTo codecs place t writes) :
    (t.afterWrites codecs writes).content? place = t.content? place ∨
      MayHoldTemporary t writes place := by
  induction writes generalizing t with
  | nil => exact Or.inl rfl
  | cons w rest ih =>
      have hrest : ¬ SomeLeadsTo codecs place (t.write codecs w).1 rest :=
        fun hlater => h (.later hlater)
      have hfirst : (t.write codecs w).2 = .ok () →
          (t.write codecs w).1.locate w.path ≠ .ok place :=
        fun hok hplace => h (.now hok hplace)
      rcases content?_write hfirst with hsame | ⟨hfree, v, hv, hm, hnamed⟩
      · rcases ih hrest with hkept | ⟨hfree, v, hv, hm, hnamed⟩
        · exact Or.inl (hkept.trans hsame)
        · exact Or.inr ⟨hsame.symm.trans hfree, v, List.mem_cons_of_mem w hv, hm, hnamed⟩
      · cases List.mem_singleton.mp hv
        exact Or.inr ⟨hfree, w, List.mem_cons_self, hm, hnamed⟩

/-- A regular file to which no write leads is not touched. -/
theorem content?_afterWrites_of_some {t : FileTree} {writes : List Write} {place : List String}
    {octets : List UInt8} (h : ¬ SomeLeadsTo codecs place t writes)
    (hcontent : t.content? place = some octets) :
    (t.afterWrites codecs writes).content? place = some octets := by
  rcases content?_afterWrites h with hsame | ⟨hfree, -⟩
  · exact hsame.trans hcontent
  · cases hfree.symm.trans hcontent

/-- Writes one after the other. A write that fails leaves the regular files as the writes before it
left them, and its temporary file only if the medium cannot clear it away. One that succeeds leads
to a file that, unless a later write that succeeds leads there too, holds when all is done what the
codec gave out for its text: all of it if the codec holds nothing back. Where no write that succeeds
leads, there is the regular file of the start, or still none, or a temporary file left over. -/
theorem writes_settle_files (codecs : Codecs) (t : FileTree) (writes : List Write) :
    (∀ before w after, writes = before ++ w :: after →
      match (t.afterWrites codecs before).write codecs w with
      | (failed, .error _) => LeavesFiles (t.afterWrites codecs before) failed w.path w.medium
      | (written, .ok ()) => ∃ target codec octets,
          codecs.find? w.encoding = some codec ∧ codec.given w.text.toList = .ok octets ∧
          (codec.GivesAll w.text.toList → codec.encode w.text.toList = .ok octets) ∧
          (t.afterWrites codecs writes).locate w.path = .ok target ∧
          written.content? target = some octets ∧
          (¬ SomeLeadsTo codecs target written after →
            (t.afterWrites codecs writes).octets w.path = .ok octets)) ∧
    ∀ place, ¬ SomeLeadsTo codecs place t writes →
      (t.afterWrites codecs writes).content? place = t.content? place ∨
        MayHoldTemporary t writes place := by
  refine ⟨?_, fun place => content?_afterWrites⟩
  rintro before w after rfl
  rw [afterWrites_append, afterWrites]
  rcases hwrite : (t.afterWrites codecs before).write codecs w with ⟨u, cause | done⟩
  · have hleaves := leavesFiles_of_failed (congrArg Prod.snd hwrite)
    rwa [hwrite] at hleaves
  · obtain ⟨codec, octets, hcodec, hgiven, target, hlocate, hcontent, -⟩ :=
      hasWritten_of_succeeded (congrArg Prod.snd hwrite)
    rw [hwrite] at hlocate hcontent
    have hlasting := locate_of_directories (keepsDirectories_afterWrites codecs u after) hlocate
    refine ⟨target, codec, octets, hcodec, hgiven, codec.encode_of_givesAll hgiven, hlasting,
      hcontent, fun hlast => ?_⟩
    have hheld := content?_afterWrites_of_some hlast hcontent
    have hwritten : HasWritten (u.afterWrites codecs after) (u.afterWrites codecs after) w.path
        octets := ⟨target, hlasting, hheld, fun _ _ => rfl⟩
    exact hwritten.octets_eq

def sparseTree : FileTree :=
  ⟨[(["work"], .directory), (["work", "d"], .directory), (["work", "kept"], .file [7])]⟩

/-- Writes of which the first and the last succeed, and lead to one file. The fifth meets a full
medium. -/
def mixedWrites : List Write :=
  [⟨⟨.here, ["a"]⟩, "1", "utf-8", {}⟩, ⟨⟨.here, ["d"]⟩, "x", "utf-8", {}⟩,
    ⟨⟨.here, ["a"]⟩, "\u00e9", "ascii", {}⟩, ⟨⟨.here, ["a", "b"]⟩, "y", "utf-8", {}⟩,
    ⟨⟨.here, ["a"]⟩, "z", "utf-8", fullMedium⟩, ⟨⟨.here, ["new", "..", "a"]⟩, "2", "utf-16", {}⟩]

theorem writes_settle_files_mixed :
    SameFiles (sparseTree.afterWrites .usual (mixedWrites.take 2))
      (sparseTree.afterWrites .usual (mixedWrites.take 3)) ∧
    (sparseTree.afterWrites .usual mixedWrites).octets ⟨.here, ["new", "..", "a"]⟩ =
      .ok [0xFF, 0xFE, 0x32, 0] ∧
    (sparseTree.afterWrites .usual mixedWrites).content? ["work", "kept"] = some [7] := by
  have hmixed := writes_settle_files .usual sparseTree mixedWrites
  refine ⟨?_, ?_, ?_⟩
  · have hthird := hmixed.1 (mixedWrites.take 2) ⟨⟨.here, ["a"]⟩, "\u00e9", "ascii", {}⟩
      (mixedWrites.drop 3) rfl
    have hfails : ((sparseTree.afterWrites .usual (mixedWrites.take 2)).write .usual
        ⟨⟨.here, ["a"]⟩, "\u00e9", "ascii", {}⟩).2.toBool = false := by decide +kernel
    split at hthird
    next failed cause hend =>
      have htree : sparseTree.afterWrites .usual (mixedWrites.take 3) = failed :=
        congrArg Prod.fst hend
      rw [htree]
      exact hthird.sameFiles ⟨rfl, rfl⟩
    next written hend =>
      rw [hend] at hfails
      cases hfails
  · have hlast := hmixed.1 (mixedWrites.take 5) ⟨⟨.here, ["new", "..", "a"]⟩, "2", "utf-16", {}⟩ []
      rfl
    have hsucceeds : ((sparseTree.afterWrites .usual (mixedWrites.take 5)).write .usual
        ⟨⟨.here, ["new", "..", "a"]⟩, "2", "utf-16", {}⟩).2.toBool = true := by decide +kernel
    split at hlast
    next failed cause hend =>
      rw [hend] at hsucceeds
      cases hsucceeds
    next written hend =>
      obtain ⟨target, codec, octets, hcodec, hgiven, -, -, -, hholds⟩ := hlast
      cases hcodec
      rw [codec_given] at hgiven
      cases hgiven
      exact hholds nofun
  · have hkept : ¬ SomeLeadsTo .usual ["work", "kept"] sparseTree mixedWrites := by decide +kernel
    rcases hmixed.2 ["work", "kept"] hkept with hsame | ⟨hfree, -⟩
    · exact hsame.trans (by decide +kernel)
    · exact absurd hfree (by decide +kernel)

/-- A label that no dot ends is not written, though the write succeeds. On a full medium a write
leaves its temporary file behind. -/
theorem writes_fall_short :
    (∃ u codec, sparseTree.write .usual ⟨⟨.here, ["a"]⟩, "abc", "idna", {}⟩ = (u, .ok ()) ∧
      Codecs.usual.find? "idna" = some codec ∧
      codec.encode "abc".toList = .ok [0x61, 0x62, 0x63] ∧ u.octets ⟨.here, ["a"]⟩ = .ok []) ∧
    ∃ u cause, sparseTree.write .usual ⟨⟨.here, ["a"]⟩, "z", "utf-8", fullMedium⟩ =
        (u, .error cause) ∧
      sparseTree.content? ["work", ".a.00000000.tmp"] = none ∧
      u.content? ["work", ".a.00000000.tmp"] = some [] :=
  ⟨⟨_, _, rfl, rfl, rfl, rfl⟩, _, _, rfl, rfl, rfl⟩

end FunctionPipeline.FileTree

import FunctionPipeline.Files.AtomicWrite
import FunctionPipeline.Proofs.Files.Contents

/-!
Atomic writes. A write that succeeds changes the file that its path leads to and no other. One that
fails, wherever it does, leaves every regular file as it was, and no further one unless the medium
does not let the temporary file be closed and removed.
-/

namespace FunctionPipeline

namespace FileTree

/-- A tree after the file that a path leads to was written: it holds some octets and every other
regular file is as it was. -/
def HasWritten (t u : FileTree) (p : Path) (octets : List UInt8) : Prop :=
  ∃ target, u.locate p = .ok target ∧ u.content? target = some octets ∧
    ∀ other, other ≠ target → u.content? other = t.content? other

theorem HasWritten.of_sameFiles {t made u : FileTree} {p : Path} {octets : List UInt8}
    (hmade : SameFiles t made) (h : HasWritten made u p octets) : HasWritten t u p octets := by
  obtain ⟨target, hlocate, hcontent, hothers⟩ := h
  exact ⟨target, hlocate, hcontent, fun other hne => (hothers other hne).trans (hmade other)⟩

/-- What was written can be read. -/
theorem HasWritten.octets_eq {t u : FileTree} {p : Path} {octets : List UInt8}
    (h : HasWritten t u p octets) : u.octets p = .ok octets := by
  obtain ⟨target, hlocate, hcontent, -⟩ := h
  rw [content?] at hcontent
  split at hcontent
  next octets' hnode =>
    cases hcontent
    simp only [FileTree.octets, hlocate, hnode, bind, Except.bind, pure, Except.pure]
  next => cases hcontent

/-- A free place in some directory with the name of a temporary file for a path. -/
structure IsTemporary (t : FileTree) (p : Path) (place : List String) : Prop where
  free : t.node? place = none
  named : ∃ directory stamp, place = directory ++ [temporaryName p.name stamp]

theorem IsTemporary.ne_nil {t : FileTree} {p : Path} {place : List String}
    (h : t.IsTemporary p place) : place ≠ [] := by
  obtain ⟨directory, stamp, rfl⟩ := h.named
  simp

/-- A tree in which a write to a path left its temporary file behind, where no regular file was.
Every other regular file is as it was. -/
def HasLeftover (t u : FileTree) (p : Path) : Prop :=
  ∃ directory stamp octets,
    t.content? (directory ++ [temporaryName p.name stamp]) = none ∧
    u.content? (directory ++ [temporaryName p.name stamp]) = some octets ∧
    ∀ other, other ≠ directory ++ [temporaryName p.name stamp] →
      u.content? other = t.content? other

theorem HasLeftover.of_sameFiles {t made u : FileTree} {p : Path} (hmade : SameFiles t made)
    (h : HasLeftover made u p) : HasLeftover t u p := by
  obtain ⟨directory, stamp, octets, hfree, hcontent, hothers⟩ := h
  exact ⟨directory, stamp, octets, (hmade _).symm.trans hfree, hcontent,
    fun other hne => (hothers other hne).trans (hmade other)⟩

theorem IsTemporary.hasLeftover {t : FileTree} {p : Path} {place : List String}
    (h : t.IsTemporary p place) (octets : List UInt8) :
    HasLeftover t (t.put place (.file octets)) p := by
  have hplace := h.ne_nil
  obtain ⟨directory, stamp, rfl⟩ := h.named
  refine ⟨directory, stamp, octets, ?_, ?_, ?_⟩
  · rw [content?, h.free]
  · rw [content?, node?_put_self t _ hplace]
  · exact fun other hne => content?_congr (node?_put_of_ne t _ hne)

theorem Medium.not_clears_of_close {cause : Fault} (m : Medium) (h : m.close = some cause) :
    ¬ m.Clears := by
  rintro ⟨hclose, -⟩
  cases h.symm.trans hclose

theorem Medium.not_clears_of_remove {cause : Fault} (m : Medium) (h : m.remove = some cause) :
    ¬ m.Clears := by
  rintro ⟨-, hremove⟩
  cases h.symm.trans hremove

/-- A tree after a write to a path failed: the regular files are those that were there, and a
temporary file too if the medium does not clear it away. -/
def LeavesFiles (t u : FileTree) (p : Path) (m : Medium) : Prop :=
  SameFiles t u ∨ ¬ m.Clears ∧ HasLeftover t u p

theorem LeavesFiles.of_sameFiles {t made u : FileTree} {p : Path} {m : Medium}
    (hmade : SameFiles t made) (h : LeavesFiles made u p m) : LeavesFiles t u p m := by
  rcases h with hsame | ⟨hm, hleft⟩
  · exact Or.inl (hmade.trans hsame)
  · exact Or.inr ⟨hm, hleft.of_sameFiles hmade⟩

theorem LeavesFiles.sameFiles {t u : FileTree} {p : Path} {m : Medium} (h : LeavesFiles t u p m)
    (hm : m.Clears) : SameFiles t u := by
  rcases h with hsame | ⟨hnot, -⟩
  · exact hsame
  · exact absurd hm hnot

private theorem freePlace?_some {t : FileTree} {directory place : List String} {p : Path}
    {stamp tries : Nat} (h : t.freePlace? directory p.name stamp tries = some place) :
    t.IsTemporary p place := by
  induction tries generalizing stamp with
  | zero => cases h
  | succ tries ih =>
      rw [freePlace?] at h
      split at h
      next hfree =>
        cases h
        exact ⟨Option.isNone_iff_eq_none.mp hfree, directory, stamp, rfl⟩
      next => exact ih h

/-- The temporary file stands where nothing was. -/
theorem makeTemporary_ok {t started : FileTree} {p : Path} {place : List String}
    (h : t.makeTemporary p = .ok (started, place)) :
    t.IsTemporary p place ∧ started = t.put place (.file []) := by
  unfold makeTemporary at h
  cases hdirectory : t.locate p.parent with
  | error cause =>
      simp only [hdirectory, bind, Except.bind] at h
      cases h
  | ok directory =>
      simp only [hdirectory, bind, Except.bind] at h
      split at h
      · cases h
      split at h
      · cases h
      split at h
      next place' hplace =>
        cases h
        exact ⟨freePlace?_some hplace, rfl⟩
      next => cases h

/-- A move takes what stands at a place to where a path leads, unless a directory is there. -/
theorem replace_ok {t u : FileTree} {place : List String} {p : Path}
    (h : t.replace place p = .ok u) :
    ∃ target node, t.locate p = .ok target ∧ t.node? target ≠ some .directory ∧
      t.node? place = some node ∧ u = (t.erase place).put target node := by
  unfold replace at h
  split at h
  · cases h
  cases hlocate : t.locate p with
  | error cause =>
      simp only [hlocate, bind, Except.bind] at h
      cases h
  | ok target =>
      simp only [hlocate, bind, Except.bind] at h
      split at h
      · cases h
      next node hnode hdirectory =>
        cases h
        exact ⟨target, node, rfl, hdirectory, hnode, rfl⟩
      · cases h

/-- A move of a file touches no directory. -/
theorem keepsDirectories_replace {t u : FileTree} {place : List String} {p : Path}
    (hfile : t.node? place ≠ some .directory) (h : t.replace place p = .ok u) :
    KeepsDirectories t u := by
  obtain ⟨target, node, -, hdirectory, -, rfl⟩ := replace_ok h
  refine (keepsDirectories_erase hfile).trans (keepsDirectories_put node ?_)
  by_cases hsame : target = place
  · rw [hsame]
    by_cases hplace : place = []
    · exact absurd (hplace ▸ rfl) hfile
    · simp [node?_erase_self t hplace]
  · rwa [node?_erase_of_ne t hsame]

/-- A temporary file that takes the place of a path's target writes it. -/
theorem hasWritten_replace {t u : FileTree} {place : List String} {p : Path} {octets : List UInt8}
    (hfree : t.node? place = none) (hplace : place ≠ [])
    (h : (t.put place (.file octets)).replace place p = .ok u) : HasWritten t u p octets := by
  have hfile : (t.put place (.file octets)).node? place = some (.file octets) :=
    node?_put_self t _ hplace
  have hkept := keepsDirectories_replace (by simp [hfile]) h
  obtain ⟨target, node, hlocate, hdirectory, hnode, rfl⟩ := replace_ok h
  cases hfile.symm.trans hnode
  have htarget : target ≠ [] := by
    rintro rfl
    exact hdirectory rfl
  have hothers : ∀ other, other ≠ target → other ≠ place →
      (((t.put place (.file octets)).erase place).put target (.file octets)).node? other =
        (t.put place (.file octets)).node? other := by
    intro other hne hne'
    rw [node?_put_of_ne _ _ hne, node?_erase_of_ne _ hne']
  refine ⟨target, locate_of_directories hkept hlocate, ?_, ?_⟩
  · rw [content?, node?_put_self _ _ htarget]
  · intro other hne
    by_cases hother : other = place
    · rw [content?, content?, node?_put_of_ne _ _ hne, hother, node?_erase_self _ hplace, hfree]
    · exact content?_congr ((hothers other hne hother).trans (node?_put_of_ne t _ hother))

/-- A temporary file that is filled without a failure holds what was given. -/
private theorem filled_ok {m : Medium} {given : Except Fault (List UInt8)} {octets : List UInt8}
    (h : filled m given = (octets, none)) : given = .ok octets := by
  unfold filled at h
  split at h
  · cases h
  next written =>
    split at h
    · cases h
    · rw [(Prod.mk.inj h).1]

section Endings

variable {t : FileTree} {p : Path} {place : List String} (hplace : t.IsTemporary p place)
include hplace

/-- A temporary file that is removed leaves no trace, and else it is left. -/
theorem discard_ends (octets : List UInt8) (m : Medium) (cause : Fault) :
    ∃ reason, ((t.put place (.file octets)).discard place m cause).2 = .error reason ∧
      LeavesFiles t ((t.put place (.file octets)).discard place m cause).1 p m := by
  unfold discard
  cases hremove : m.remove with
  | some again =>
      exact ⟨again, rfl, Or.inr ⟨m.not_clears_of_remove hremove, hplace.hasLeftover octets⟩⟩
  | none => exact ⟨cause, rfl, Or.inl (sameFiles_erase_put _ hplace.free)⟩

theorem abandon_ends (octets : List UInt8) (m : Medium) (cause : Fault) :
    ∃ reason, ((t.put place (.file octets)).abandon place m cause).2 = .error reason ∧
      LeavesFiles t ((t.put place (.file octets)).abandon place m cause).1 p m := by
  unfold abandon
  cases hclose : m.close with
  | some again =>
      exact ⟨again, rfl, Or.inr ⟨m.not_clears_of_close hclose, hplace.hasLeftover octets⟩⟩
  | none => exact discard_ends hplace octets m cause

/-- A full temporary file takes the target's place, or the write has failed. -/
theorem settle_ends (octets : List UInt8) (m : Medium) :
    (∃ reason, ((t.put place (.file octets)).settle place p m).2 = .error reason ∧
      LeavesFiles t ((t.put place (.file octets)).settle place p m).1 p m) ∨
    ((t.put place (.file octets)).settle place p m).2 = .ok () ∧
      HasWritten t ((t.put place (.file octets)).settle place p m).1 p octets := by
  unfold settle
  cases hreplace : (t.put place (.file octets)).replace place p with
  | error cause => exact Or.inl (discard_ends hplace octets m cause)
  | ok done =>
      cases m.move with
      | some cause => exact Or.inl (discard_ends hplace octets m cause)
      | none => exact Or.inr ⟨rfl, hasWritten_replace hplace.free hplace.ne_nil hreplace⟩

/-- Filling the temporary file and moving it leaves the regular files that were there if it fails,
and else changes only the one that was to be written. -/
theorem complete_ends (m : Medium) (given : Except Fault (List UInt8)) :
    (∃ reason, ((t.put place (.file [])).complete place p m given).2 = .error reason ∧
      LeavesFiles t ((t.put place (.file [])).complete place p m given).1 p m) ∨
    ∃ octets, given = .ok octets ∧
      ((t.put place (.file [])).complete place p m given).2 = .ok () ∧
      HasWritten t ((t.put place (.file [])).complete place p m given).1 p octets := by
  unfold complete
  rcases hfilled : filled m given with ⟨octets, failed⟩
  simp only [put_put]
  cases failed with
  | some cause => exact Or.inl (abandon_ends hplace octets m cause)
  | none =>
      cases hclose : m.close with
      | some cause =>
          have hm := m.not_clears_of_close hclose
          exact Or.inl ⟨cause, rfl, Or.inr ⟨hm, hplace.hasLeftover octets⟩⟩
      | none =>
          rcases settle_ends hplace octets m with hfailed | ⟨hok, hwritten⟩
          · exact Or.inl hfailed
          · exact Or.inr ⟨octets, filled_ok hfilled, hok, hwritten⟩

end Endings

/-- Making the directory of a path, whether it succeeds or not, changes no regular file. -/
theorem sameFiles_prepare (t : FileTree) (p : Path) (m : Medium) :
    SameFiles t (t.prepare p m).1 := by
  unfold prepare
  split
  · split <;> exact SameFiles.refl t
  · exact sameFiles_makeDirectories t p.parent

theorem keepsDirectories_prepare (t : FileTree) (p : Path) (m : Medium) :
    KeepsDirectories t (t.prepare p m).1 := by
  unfold prepare
  split
  · split <;> exact KeepsDirectories.refl t
  · exact keepsDirectories_makeDirectories t p.parent

/-- A write fails and leaves the regular files that were there, or it succeeds and the path's file
holds what the codec gave out for the text, all others being as they were. -/
theorem writeText_ends (t : FileTree) (p : Path) (text encoding : String) (codecs : Codecs)
    (m : Medium) :
    (∃ cause, (t.writeText p text encoding codecs m).2 = .error cause ∧
      LeavesFiles t (t.writeText p text encoding codecs m).1 p m) ∨
    ∃ codec octets, (t.writeText p text encoding codecs m).2 = .ok () ∧
      codecs.find? encoding = some codec ∧ codec.given text.toList = .ok octets ∧
      HasWritten t (t.writeText p text encoding codecs m).1 p octets := by
  have hdirectories := sameFiles_prepare t p m
  unfold writeText
  split
  next made cause hmade =>
    rw [hmade] at hdirectories
    exact Or.inl ⟨cause, rfl, Or.inl hdirectories⟩
  next made hmade =>
    rw [hmade] at hdirectories
    split
    · exact Or.inl ⟨nullFault, rfl, Or.inl hdirectories⟩
    split
    next cause _ => exact Or.inl ⟨cause, rfl, Or.inl hdirectories⟩
    next cause _ _ => exact Or.inl ⟨cause, rfl, Or.inl hdirectories⟩
    next started place htemporary _ =>
      obtain ⟨hplace, rfl⟩ := makeTemporary_ok htemporary
      split
      next =>
        obtain ⟨reason, hreason, hleaves⟩ := discard_ends hplace [] m (.unknownEncoding encoding)
        exact Or.inl ⟨reason, hreason, hleaves.of_sameFiles hdirectories⟩
      next codec hcodec =>
        rcases complete_ends hplace m (codec.given text.toList) with
          ⟨reason, hreason, hleaves⟩ | ⟨octets, hgiven, hok, hwritten⟩
        · exact Or.inl ⟨reason, hreason, hleaves.of_sameFiles hdirectories⟩
        · exact Or.inr ⟨codec, octets, hok, hcodec, hgiven, hwritten.of_sameFiles hdirectories⟩

/-! No step of a write touches a directory, whether it succeeds or not. -/

section Directories

variable {t : FileTree} {place : List String} (hfile : t.node? place ≠ some .directory)
include hfile

private theorem keepsDirectories_discard (m : Medium) (cause : Fault) :
    KeepsDirectories t (t.discard place m cause).1 := by
  unfold discard
  split
  · exact KeepsDirectories.refl t
  · exact keepsDirectories_erase hfile

private theorem keepsDirectories_abandon (m : Medium) (cause : Fault) :
    KeepsDirectories t (t.abandon place m cause).1 := by
  unfold abandon
  split
  · exact KeepsDirectories.refl t
  · exact keepsDirectories_discard hfile m cause

private theorem keepsDirectories_settle (p : Path) (m : Medium) :
    KeepsDirectories t (t.settle place p m).1 := by
  unfold settle
  split
  · exact keepsDirectories_discard hfile m _
  · exact keepsDirectories_discard hfile m _
  next done hmoved _ => exact keepsDirectories_replace hfile hmoved

private theorem keepsDirectories_complete (hplace : place ≠ []) (p : Path) (m : Medium)
    (given : Except Fault (List UInt8)) :
    KeepsDirectories t (t.complete place p m given).1 := by
  unfold complete
  rcases filled m given with ⟨octets, failed⟩
  have hput : KeepsDirectories t (t.put place (.file octets)) := keepsDirectories_put _ hfile
  have hfull : (t.put place (.file octets)).node? place ≠ some .directory := by
    simp [node?_put_self t _ hplace]
  dsimp only
  split
  · exact hput.trans (keepsDirectories_abandon hfull m _)
  · exact hput
  · exact hput.trans (keepsDirectories_settle hfull p m)

end Directories

/-- A write, whether it succeeds or not, leaves every directory where it was. -/
theorem keepsDirectories_writeText (t : FileTree) (p : Path) (text encoding : String)
    (codecs : Codecs) (m : Medium) :
    KeepsDirectories t (t.writeText p text encoding codecs m).1 := by
  have hmade := keepsDirectories_prepare t p m
  unfold writeText
  split
  next made cause hfailed => rwa [hfailed] at hmade
  next made hdirectories =>
    rw [hdirectories] at hmade
    split
    · exact hmade
    split
    · exact hmade
    · exact hmade
    next started place htemporary _ =>
      obtain ⟨hplace, rfl⟩ := makeTemporary_ok htemporary
      have hput : KeepsDirectories made (made.put place (.file [])) :=
        keepsDirectories_put _ (by simp [hplace.free])
      have hfile : (made.put place (.file [])).node? place ≠ some .directory := by
        simp [node?_put_self made _ hplace.ne_nil]
      refine (hmade.trans hput).trans ?_
      split
      · exact keepsDirectories_discard hfile m _
      · exact keepsDirectories_complete hfile hplace.ne_nil p m _

end FileTree

namespace Codec

/-- Where nothing is held back, all octets of a text come out before the codec is finished. -/
theorem encode_of_givesAll (c : Codec) {s : List Char} {octets : List UInt8}
    (hgiven : c.given s = .ok octets) (h : c.GivesAll s) : c.encode s = .ok octets := by
  unfold given at hgiven
  unfold encode
  cases hfed : c.feed c.start s with
  | error cause => rw [hfed] at hgiven; cases hgiven
  | ok fed =>
      obtain ⟨state, out⟩ := fed
      rw [hfed] at hgiven
      cases hgiven
      simp [h state out hfed, bind, Except.bind, pure, Except.pure]

end Codec

namespace FileTree

/-- The codec of an encoding gives all of a text at once, the octets of the encoding. -/
theorem codec_given (e : Encoding) (s : List Char) :
    e.codec.given s = match e.encode? s with
      | some octets => .ok octets
      | none => .error .unencodable := by
  change (e.codec.feed false s >>= fun fed => pure fed.2) = _
  simp only [Encoding.codec, Bool.false_eq_true, if_false]
  cases e.encode? s <;> rfl

/-- In the usual encoding every text has octets, its UTF-8 form. -/
theorem given_usual (text : String) (codecs : Codecs) :
    ∃ codec, codecs.find? usualEncoding = some codec ∧
      codec.given text.toList = .ok (Utf8.encode text.toList) := by
  have hall (cs : List Char) : Encoding.encodeAll? .utf8 cs = some (Utf8.encode cs) := by
    induction cs with
    | nil => rfl
    | cons c rest ih => simp [Encoding.encodeAll?, Encoding.octetsOf?, Utf8.encode, ih]
  have hname : Encoding.ofName? usualEncoding = some .utf8 := by decide
  refine ⟨Encoding.utf8.codec, by rw [Codecs.find?, hname], ?_⟩
  simp [codec_given, Encoding.encode?, hall, Encoding.mark]

def noSpace : Fault := .refused "[Errno 28] No space left on device"

/-- A full medium refuses what is flushed to it, and the same once more when the file is closed. -/
def fullMedium : Medium := { flush := some noSpace, close := some noSpace }

/-- A write that comes to fill its temporary file on a full medium fails and leaves it, empty. -/
theorem writeText_fullMedium {t made started : FileTree} {p : Path} {place : List String}
    (hmade : t.makeDirectories p.parent = (made, .ok ()))
    (hstarted : made.makeTemporary p = .ok (started, place)) (text : String) (codecs : Codecs) :
    t.writeText p text usualEncoding codecs fullMedium =
      (made.put place (.file []), .error noSpace) := by
  have hprepare : t.prepare p fullMedium = (made, .ok ()) := hmade
  have hname : ¬ usualEncoding.toList.contains '\x00' = true := by decide
  have hcreate : fullMedium.create = none := rfl
  obtain ⟨codec, hcodec, hgiven⟩ := given_usual text codecs
  obtain ⟨-, hstart⟩ := makeTemporary_ok hstarted
  have hcomplete : started.complete place p fullMedium (codec.given text.toList) =
      (made.put place (.file []), .error noSpace) := by
    rw [hgiven, hstart]
    simp [complete, filled, abandon, fullMedium, put_put]
  simp only [writeText, hprepare, if_neg hname, hstarted, hcreate, hcodec, hcomplete]

end FileTree

end FunctionPipeline

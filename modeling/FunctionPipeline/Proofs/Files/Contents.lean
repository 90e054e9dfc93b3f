import FunctionPipeline.Files.Tree

/-!
What regular files hold. `FileTree.content?` is the view that writes are judged by: directories do
not count in it, so making directories changes nothing, and neither does putting something at a free
place and taking it away again.
-/

namespace FunctionPipeline.FileTree

def content? (t : FileTree) (place : List String) : Option (List UInt8) :=
  match t.node? place with
  | some (.file octets) => some octets
  | _ => none

/-- The same regular files with the same contents. -/
def SameFiles (t u : FileTree) : Prop := ∀ place, u.content? place = t.content? place

theorem SameFiles.refl (t : FileTree) : SameFiles t t := fun _ => rfl

theorem SameFiles.trans {t u v : FileTree} (h : SameFiles t u) (h' : SameFiles u v) :
    SameFiles t v := fun place => (h' place).trans (h place)

private theorem lookup_filter_of_ne (nodes : List (List String × FileNode))
    {place other : List String} (h : other ≠ place) :
    (nodes.filter fun e => e.1 ≠ place).lookup other = nodes.lookup other := by
  induction nodes with
  | nil => rfl
  | cons e rest ih =>
      obtain ⟨key, node⟩ := e
      by_cases hkey : key = place
      · have hother : (other == key) = false := by simpa [hkey] using h
        rw [List.filter_cons_of_neg (by simp [hkey]), ih, List.lookup_cons, hother]
      · rw [List.filter_cons_of_pos (by simp [hkey]), List.lookup_cons, List.lookup_cons, ih]

private theorem lookup_filter_self (nodes : List (List String × FileNode))
    (place : List String) : (nodes.filter fun e => e.1 ≠ place).lookup place = none := by
  rw [List.lookup_eq_none_iff]
  intro e he
  have hne : e.1 ≠ place := by simpa using (List.mem_filter.mp he).2
  exact bne_iff_ne.mpr hne.symm

theorem node?_erase_of_ne (t : FileTree) {place other : List String} (h : other ≠ place) :
    (t.erase place).node? other = t.node? other := by
  rw [node?, node?, erase, lookup_filter_of_ne t.nodes h]

theorem node?_erase_self (t : FileTree) {place : List String} (h : place ≠ []) :
    (t.erase place).node? place = none := by
  rw [node?, erase, lookup_filter_self, if_neg (by simpa using h)]

theorem node?_put_of_ne (t : FileTree) (node : FileNode) {place other : List String}
    (h : other ≠ place) : (t.put place node).node? other = t.node? other := by
  rw [← node?_erase_of_ne t h, node?, node?, put, List.lookup_cons, beq_false_of_ne h]

theorem node?_put_self (t : FileTree) (node : FileNode) {place : List String} (h : place ≠ []) :
    (t.put place node).node? place = some node := by
  rw [node?, put, List.lookup_cons, if_neg (by simpa using h), beq_self_eq_true]

theorem put_put (t : FileTree) (place : List String) (first second : FileNode) :
    (t.put place first).put place second = t.put place second := by
  simp [put, erase]

theorem content?_congr {t u : FileTree} {place : List String} (h : u.node? place = t.node? place) :
    u.content? place = t.content? place := by
  rw [content?, content?, h]

/-- What is put at a free place and taken away again leaves no trace. -/
theorem sameFiles_erase_put {t : FileTree} {place : List String} (node : FileNode)
    (hfree : t.node? place = none) : SameFiles t ((t.put place node).erase place) := by
  intro other
  by_cases h : other = place
  · have hplace : place ≠ [] := by
      rintro rfl
      cases hfree
    rw [h, content?, content?, node?_erase_self _ hplace, hfree]
  · exact content?_congr ((node?_erase_of_ne _ h).trans (node?_put_of_ne t node h))

/-- A directory at a free place is no regular file. -/
theorem sameFiles_put_directory {t : FileTree} {place : List String}
    (hfree : t.node? place = none) : SameFiles t (t.put place .directory) := by
  intro other
  by_cases h : other = place
  · have hplace : place ≠ [] := by
      rintro rfl
      cases hfree
    rw [h, content?, content?, node?_put_self t _ hplace, hfree]
  · exact content?_congr (node?_put_of_ne t _ h)

def KeepsDirectories (t u : FileTree) : Prop :=
  ∀ place, t.node? place = some .directory → u.node? place = some .directory

theorem KeepsDirectories.refl (t : FileTree) : KeepsDirectories t t := fun _ h => h

theorem KeepsDirectories.trans {t u v : FileTree} (h : KeepsDirectories t u)
    (h' : KeepsDirectories u v) : KeepsDirectories t v :=
  fun place hplace => h' place (h place hplace)

/-- Where no directory was, anything may be put or taken away. -/
theorem keepsDirectories_put {t : FileTree} {place : List String} (node : FileNode)
    (h : t.node? place ≠ some .directory) : KeepsDirectories t (t.put place node) := by
  intro other hother
  rw [node?_put_of_ne t node, hother]
  rintro rfl
  exact h hother

theorem keepsDirectories_erase {t : FileTree} {place : List String}
    (h : t.node? place ≠ some .directory) : KeepsDirectories t (t.erase place) := by
  intro other hother
  rw [node?_erase_of_ne t, hother]
  rintro rfl
  exact h hother

/-! Making directories. Whether it succeeds or not, it does no more than put directories at free
places, so it keeps what that keeps. -/

section MakingDirectories

variable {R : FileTree → FileTree → Prop} (hrefl : ∀ t, R t t)
  (htrans : ∀ {t u v}, R t u → R u v → R t v)
  (hput : ∀ {t place}, t.node? place = none → R t (t.put place .directory))

include hput in
private theorem makeDirectory_keeps {t made : FileTree} {p : Path}
    (h : t.makeDirectory p = .ok made) : R t made := by
  unfold makeDirectory at h
  cases hplace : t.locate p with
  | error cause => simp [hplace, bind, Except.bind] at h
  | ok place =>
      cases hnode : t.node? place with
      | some node =>
          simp only [hplace, hnode, bind, Except.bind] at h
          cases h
      | none =>
          simp only [hplace, hnode, bind, Except.bind] at h
          cases h
          exact hput hnode

include hrefl hput in
private theorem ensureDirectory_keeps {t made : FileTree} {p : Path}
    (h : t.ensureDirectory p = .ok made) : R t made := by
  unfold ensureDirectory at h
  split at h
  next made' hmade =>
    cases h
    exact makeDirectory_keeps hput hmade
  next =>
    split at h
    · cases h
      exact hrefl t
    · cases h

include hrefl htrans hput in
private theorem ensureAll_keeps (t : FileTree) (start : PathStart) (names : List String) :
    R t (t.ensureAll start names).1 := by
  induction names with
  | nil => exact hrefl t
  | cons name above ih =>
      rw [ensureAll]
      split
      next made hmade => exact ensureDirectory_keeps hrefl hput hmade
      next =>
        split
        · exact hrefl t
        · split
          next made cause habove => exact habove ▸ ih
          next made habove =>
            have hbelow : R t made := by simpa [habove] using ih
            split
            next done hdone => exact htrans hbelow (ensureDirectory_keeps hrefl hput hdone)
            next => exact hbelow
      next => exact hrefl t

end MakingDirectories

/-- Making directories, whether it succeeds or not, changes no regular file. -/
theorem sameFiles_makeDirectories (t : FileTree) (p : Path) :
    SameFiles t (t.makeDirectories p).1 :=
  ensureAll_keeps SameFiles.refl SameFiles.trans sameFiles_put_directory t p.start p.names.reverse

theorem keepsDirectories_makeDirectories (t : FileTree) (p : Path) :
    KeepsDirectories t (t.makeDirectories p).1 := by
  refine ensureAll_keeps KeepsDirectories.refl KeepsDirectories.trans ?_ t p.start p.names.reverse
  intro t place hfree
  exact keepsDirectories_put .directory (by simp [hfree])

/-! Ways through directories. -/

/-- A way leads to the same place where all the directories on it still stand. -/
theorem walk_of_directories {t u : FileTree} (h : KeepsDirectories t u)
    {text : String} {place target : List String} {names : List String}
    (hwalk : t.walk text place names = .ok target) : u.walk text place names = .ok target := by
  induction names generalizing place with
  | nil => exact hwalk
  | cons name rest ih =>
      rw [walk] at hwalk ⊢
      split at hwalk
      · cases hwalk
      · cases hwalk
      next hnode =>
        rw [h _ hnode]
        dsimp only
        split at hwalk
        · cases hwalk
        next hshort =>
          rw [if_neg hshort]
          exact ih hwalk

theorem locate_of_directories {t u : FileTree} (h : KeepsDirectories t u) {p : Path}
    {target : List String} (hlocate : t.locate p = .ok target) : u.locate p = .ok target := by
  rw [locate] at hlocate ⊢
  split at hlocate
  · cases hlocate
  next hplain =>
    rw [if_neg hplain]
    exact walk_of_directories h hlocate

end FunctionPipeline.FileTree

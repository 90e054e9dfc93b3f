import FunctionPipeline.Proofs.Document.Closed
import FunctionPipeline.Proofs.SourceMap.GivenOrder

/-!
Positions in maps that data describes. A lookup agrees with a reading of the lines as they were
given, without sorting and without searching: `sourceFor_located`.
-/

namespace FunctionPipeline

namespace SourceMap

/-- What data says: the sources one by one, what stands before each of them, and the text of the
mappings. What is absent is empty, and so is a root that counts as nothing. -/
structure Describes (data : Value) (sources : List Value) (root : Value) (mappings : String) :
    Prop where
  sources : ∃ found, data.lookUp "sources" = .ok found ∧
    (found.getD (.list [])).elements = .ok sources
  root : ∃ found, data.lookUp "sourceRoot" = .ok found ∧
    (if (found.getD .null).isTrue then found.getD .null else .str "") = root
  mappings : ∃ found, data.lookUp "mappings" = .ok found ∧ found.getD (.str "") = .str mappings

/-- Data is a map if it describes one whose mappings can be read. -/
theorem ofData_eq_ok_iff {data : Value} {m : SourceMap} :
    ofData data = .ok m ↔ ∃ text, Describes data m.sources m.root text ∧
      Mappings.decode text.toList = .ok m.lines := by
  constructor
  · intro h
    unfold ofData at h
    dsimp only at h
    split at h
    next => cases h
    next sources root text hparts =>
      obtain ⟨found, hfound, hrest⟩ := ok_of_bind hparts
      obtain ⟨elements, helements, hrest⟩ := ok_of_bind hrest
      obtain ⟨given, hgiven, hrest⟩ := ok_of_bind hrest
      obtain ⟨written, hwritten, hrest⟩ := ok_of_bind hrest
      split at h
      next => cases h
      next => cases h
      next lines hlines =>
        cases h
        split at hrest
        next mappings hmappings =>
          cases hrest
          exact ⟨_, ⟨⟨found, hfound, helements⟩, ⟨given, hgiven, rfl⟩,
            ⟨written, hwritten, hmappings⟩⟩, hlines⟩
        next => cases hrest
        next => cases hrest
  · rintro ⟨text, ⟨⟨found, hfound, helements⟩, ⟨given, hgiven, hroot⟩,
      ⟨written, hwritten, hmappings⟩⟩, hread⟩
    simp only [ofData, hfound, helements, hgiven, hwritten, hmappings, hroot, bind, Except.bind,
      pure, Except.pure, hread]

/-- An object with the names of sources, a root and mappings describes them. -/
theorem describes_object (names : List String) (root text : String) :
    Describes (.object [(.str "sources", .list (names.map .str)), (.str "sourceRoot", .str root),
      (.str "mappings", .str text)]) (names.map .str) (.str root) text := by
  let members : Entries := [(.str "sources", .list (names.map .str)),
    (.str "sourceRoot", .str root), (.str "mappings", .str text)]
  have htexts : ∀ x ∈ names.map Value.str, x.IsClosed := by simp
  have hmembers : members.IsClosed := by simp [members, Value.isClosed_sequence htexts]
  have hlookUp (name : String) :
      (Value.object members).lookUp name = .ok (Entries.field? members name) := by
    rw [Value.lookUp, Value.entries?_of_closed hmembers]
  constructor
  case sources =>
    refine ⟨_, hlookUp "sources", ?_⟩
    simp [members, Entries.field?_cons, Value.elements, Value.items?_of_closed htexts]
  case root =>
    refine ⟨_, hlookUp "sourceRoot", ?_⟩
    by_cases hempty : root = "" <;> simp [members, Entries.field?_cons, Value.isTrue, hempty]
  case mappings =>
    refine ⟨_, hlookUp "mappings", ?_⟩
    simp [members, Entries.field?_cons]

def IsNearestAt (given : List (List Segment)) (line column : Int) (s : Segment) : Prop :=
  1 ≤ line ∧ ∃ segments, given[(line - 1).toNat]? = some segments ∧ IsNearest column segments s

/-- A map that was read in the order of the columns selects the nearest of the segments given. -/
theorem selects_iff {m : SourceMap} {given : List (List Segment)}
    (h : m.lines = given.map Mappings.inOrder) {line column : Int} {s : Segment} :
    m.Selects line column s ↔ IsNearestAt given line column s := by
  constructor
  · rintro ⟨hline, sorted, hsorted, hfalls⟩
    rw [h, List.getElem?_map, Option.map_eq_some_iff] at hsorted
    obtain ⟨segments, hsegments, rfl⟩ := hsorted
    have hordered := Mappings.isStablySorted_inOrder segments
    exact ⟨hline, segments, hsegments, isNearest_of_fallsInto hordered hfalls⟩
  · rintro ⟨hline, segments, hsegments, hs⟩
    obtain ⟨t, hfalls, ht⟩ := exists_nearest (List.ne_nil_of_mem hs.mem) column
    obtain rfl := ht.unique hs
    refine ⟨hline, Mappings.inOrder segments, ?_, hfalls⟩
    rw [h, List.getElem?_map, hsegments]
    rfl

/-- A root without the slashes at its end is settled by where they start. -/
theorem withoutSlashes_eq {root stem : String} {slashes : List Char}
    (hsplit : root.toList = stem.toList ++ slashes) (hslashes : ∀ c ∈ slashes, c = '/')
    (hstem : stem.toList.getLast? ≠ some '/') : withoutSlashes root = stem := by
  have hall : ∀ c ∈ slashes.reverse, decide (c = '/') = true := by simpa using hslashes
  have hstay : stem.toList.reverse.dropWhile (fun c => c = '/') = stem.toList.reverse := by
    cases hreverse : stem.toList.reverse with
    | nil => rfl
    | cons c rest =>
        rw [List.getLast?_eq_head?_reverse, hreverse, List.head?_cons, ne_eq,
          Option.some.injEq] at hstem
        rw [List.dropWhile_cons_of_neg (by simpa using hstem)]
  rw [withoutSlashes, hsplit, List.reverse_append, List.dropWhile_append_of_pos hall, hstay,
    List.reverse_reverse, String.ofList_toList]

theorem exists_slashes (root : String) :
    ∃ slashes, root.toList = (withoutSlashes root).toList ++ slashes ∧
      (∀ c ∈ slashes, c = '/') ∧ (withoutSlashes root).toList.getLast? ≠ some '/' := by
  have hsplit := List.takeWhile_append_dropWhile
    (p := fun c : Char => decide (c = '/')) (l := root.toList.reverse)
  refine ⟨(root.toList.reverse.takeWhile fun c => c = '/').reverse, ?_, fun c hc => ?_, ?_⟩
  · rw [withoutSlashes, String.toList_ofList, ← List.reverse_append, hsplit, List.reverse_reverse]
  · simpa using List.mem_takeWhile_imp (List.mem_reverse.mp hc)
  · rw [withoutSlashes, String.toList_ofList, List.getLast?_reverse]
    intro hlast
    have hstop := List.head?_dropWhile_not (fun c : Char => decide (c = '/')) root.toList.reverse
    rw [hlast] at hstop
    simp at hstop

/-- The name of a source behind a root: the name itself if there is no root, else the root without
the slashes at its end, one slash, and the name as it is told. -/
inductive Behind (root : String) (name : Value) : Except Fault Value → Prop
  | bare (hroot : root = "") : Behind root name (.ok name)
  | rooted {stem : String} {slashes : List Char} (hroot : root ≠ "")
      (hsplit : root.toList = stem.toList ++ slashes) (hslashes : ∀ c ∈ slashes, c = '/')
      (hstem : stem.toList.getLast? ≠ some '/') :
      Behind root name (name.shown.map fun shown => .str (stem ++ "/" ++ shown))

theorem behind_iff {root : String} {name : Value} {file : Except Fault Value} :
    Behind root name file ↔
      file = if root.isEmpty then .ok name
        else name.shown.map fun shown => .str (withoutSlashes root ++ "/" ++ shown) := by
  constructor
  · intro h
    cases h with
    | bare hroot => rw [hroot]; rfl
    | rooted hroot hsplit hslashes hstem =>
        rw [withoutSlashes_eq hsplit hslashes hstem, if_neg (by simpa using hroot)]
  · rintro rfl
    split
    next hempty => exact .bare (by simpa using hempty)
    next hne =>
      obtain ⟨slashes, hsplit, hslashes, hstem⟩ := exists_slashes root
      exact .rooted (by simpa using hne) hsplit hslashes hstem

/-- The answer for a position by the lines as they were given. It is left open where the nearest
segment counts its source from below 0. -/
inductive Located (sources : List Value) (root : String) (given : List (List Segment))
    (line column : Int) : Except Fault (Option Location) → Prop
  | noLine (hline : line < 1 ∨ given.length < line) :
      Located sources root given line column (.ok none)
  | noSegments (hline : 1 ≤ line) (hempty : given[(line - 1).toNat]? = some []) :
      Located sources root given line column (.ok none)
  | noOrigin {s : Segment} (hs : IsNearestAt given line column s) (horigin : s.origin = none) :
      Located sources root given line column (.ok none)
  | noSource {s : Segment} {origin : Origin} (hs : IsNearestAt given line column s)
      (horigin : s.origin = some origin) (hsource : sources.length ≤ origin.source) :
      Located sources root given line column (.ok none)
  | place {s : Segment} {origin : Origin} {name : Value} {file : Except Fault Value}
      (hs : IsNearestAt given line column s) (horigin : s.origin = some origin)
      (hsource : 0 ≤ origin.source) (hname : sources[origin.source.toNat]? = some name)
      (hfile : Behind root name file) :
      Located sources root given line column
        (file.map fun file => some ⟨file, .int (origin.line + 1), .int origin.column⟩)

/-- Every position is located, or its nearest segment counts its source from below 0. -/
theorem exists_located (sources : List Value) (root : String) (given : List (List Segment))
    (line column : Int) :
    (∃ answer, Located sources root given line column answer) ∨
      ∃ s origin, IsNearestAt given line column s ∧ s.origin = some origin ∧ origin.source < 0 := by
  by_cases hout : line < 1 ∨ given.length < line
  · exact Or.inl ⟨_, .noLine hout⟩
  obtain ⟨hline, hlast⟩ : 1 ≤ line ∧ line ≤ given.length := by omega
  have hbound : (line - 1).toNat < given.length := by omega
  have hsegments := List.getElem?_eq_getElem hbound
  by_cases hempty : given[(line - 1).toNat] = []
  · rw [hempty] at hsegments
    exact Or.inl ⟨_, .noSegments hline hsegments⟩
  obtain ⟨s, -, hnearest⟩ := exists_nearest hempty column
  have hs : IsNearestAt given line column s := ⟨hline, _, hsegments, hnearest⟩
  cases horigin : s.origin with
  | none => exact Or.inl ⟨_, .noOrigin hs horigin⟩
  | some origin =>
      by_cases hnegative : origin.source < 0
      · exact Or.inr ⟨s, origin, hs, horigin, hnegative⟩
      by_cases hbeyond : sources.length ≤ origin.source
      · exact Or.inl ⟨_, .noSource hs horigin hbeyond⟩
      · have hwithin : origin.source.toNat < sources.length := by omega
        exact Or.inl ⟨_, .place hs horigin (by omega) (List.getElem?_eq_getElem hwithin)
          (behind_iff.mpr rfl)⟩

/-- The place of a segment with a source that is not beyond the last one. -/
theorem placeOf_eq_map {m : SourceMap} {s : Segment} {origin : Origin}
    (horigin : s.origin = some origin) (hsource : origin.source < m.sources.length) :
    m.placeOf s = (m.sourceName origin.source).map fun file =>
      some ⟨file, .int (origin.line + 1), .int origin.column⟩ := by
  rw [placeOf, horigin]
  dsimp only
  rw [if_neg (by omega)]
  cases m.sourceName origin.source <;> rfl

/-- A lookup agrees with the lines as they were given. Data that describes sources, a root and
mappings that can be read is a map, and for every position the map gives the answer that is located
there; only where the nearest segment counts its source from below 0 none is. -/
theorem sourceFor_located {data : Value} {sources : List Value} {root text : String}
    {lines : List (List Segment)} (hdata : Describes data sources (.str root) text)
    (hread : Mappings.decode text.toList = .ok lines) :
    ∃ given m, Mappings.decodeAsGiven text.toList = .ok given ∧ ofData data = .ok m ∧
      ∀ line column : Int,
        (∀ answer, Located sources root given line column answer →
          m.sourceFor (.int line) (.int column) = answer) ∧
        ((∃ answer, Located sources root given line column answer) ∨
          ∃ s origin, IsNearestAt given line column s ∧ s.origin = some origin ∧
            origin.source < 0) := by
  obtain ⟨given, hgiven, hlines⟩ := Mappings.decode_eq_ok_iff.mp hread
  have hsorted := Mappings.sorted_of_lines hread
  let m : SourceMap := ⟨sources, .str root, lines⟩
  have hmap : ofData data = .ok m := ofData_eq_ok_iff.mpr ⟨text, hdata, hread⟩
  refine ⟨given, m, hgiven, hmap, fun line column => ⟨fun answer h => ?_, ?_⟩⟩
  · rw [sourceFor_int]
    have hplace {s : Segment} (hs : IsNearestAt given line column s) :
        m.sourceAt line column = m.placeOf s :=
      sourceAt_of_selects hsorted ((selects_iff hlines).mpr hs)
    have hnone (h : ∀ s, ¬ IsNearestAt given line column s) :
        m.sourceAt line column = .ok none :=
      sourceAt_of_not_selects hsorted fun s hs => h s ((selects_iff hlines).mp hs)
    cases h with
    | noLine hline =>
        apply hnone
        rintro s ⟨hfirst, segments, hsegments, -⟩
        obtain ⟨hbound, -⟩ := List.getElem?_eq_some_iff.mp hsegments
        omega
    | noSegments hline hempty =>
        apply hnone
        rintro s ⟨-, segments, hsegments, hs⟩
        obtain rfl := Option.some.inj (hempty.symm.trans hsegments)
        exact absurd hs.mem List.not_mem_nil
    | noOrigin hs horigin => rw [hplace hs, placeOf, horigin]
    | noSource hs horigin hsource =>
        rw [hplace hs, placeOf, horigin]
        exact if_pos hsource
    | @place s origin name file hs horigin hsource hname hfile =>
        obtain ⟨hbound, -⟩ := List.getElem?_eq_some_iff.mp hname
        have hwithin : origin.source < m.sources.length := by
          change origin.source < sources.length
          omega
        have hindex := place_of_counted hsource m.sources.length
        rw [hplace hs, placeOf_eq_map horigin hwithin, sourceName_eq rfl hindex hname,
          behind_iff.mp hfile]
  · exact exists_located sources root given line column

/-- Segments of one line out of order, two of them from column 10 on and two from column 4 on. -/
def unsorted : List Segment :=
  [⟨10, some ⟨0, 0, 0⟩⟩, ⟨4, some ⟨1, 2, 0⟩⟩, ⟨10, some ⟨1, 5, 3⟩⟩, ⟨4, none⟩]

theorem isNearestAt_unsorted :
    IsNearestAt [unsorted] 1 12 ⟨10, some ⟨1, 5, 3⟩⟩ ∧ IsNearestAt [unsorted] 1 7 ⟨4, none⟩ ∧
      IsNearestAt [unsorted] 1 0 ⟨4, some ⟨1, 2, 0⟩⟩ := by
  have hlast : unsorted = unsorted.take 3 ++ [⟨4, none⟩] := rfl
  have hthird : unsorted = unsorted.take 2 ++ ⟨10, some ⟨1, 5, 3⟩⟩ :: unsorted.drop 3 := rfl
  have hsecond : unsorted = unsorted.take 1 ++ ⟨4, some ⟨1, 2, 0⟩⟩ :: unsorted.drop 2 := rfl
  refine ⟨⟨by omega, unsorted, rfl, ?_⟩, ⟨by omega, unsorted, rfl, ?_⟩,
    ⟨by omega, unsorted, rfl, ?_⟩⟩
  · exact .reached hthird (by simp) (by simp [unsorted]) (by simp [unsorted])
  · exact .reached hlast (by simp) (by simp [unsorted]) (by simp)
  · exact .beyond hsecond (by simp [unsorted]) (by simp [unsorted]) (by simp [unsorted])

theorem sourceFor_located_unsorted :
    ∃ m, ofData (.object [(.str "sources", .list [.str "a.js", .str "b.js"]),
        (.str "sourceRoot", .str "src//"), (.str "mappings", .str "UAAA,NCEA,MAGG,N")]) = .ok m ∧
      Mappings.decode "UAAA,NCEA,MAGG,N".toList = .ok [Mappings.inOrder unsorted] ∧
      m.sourceFor (.int 1) (.int 12) = .ok (some ⟨.str "src/b.js", .int 6, .int 3⟩) ∧
      m.sourceFor (.int 1) (.int 7) = .ok none ∧
      m.sourceFor (.int 1) (.int 0) = .ok (some ⟨.str "src/b.js", .int 3, .int 0⟩) := by
  have hdata := describes_object ["a.js", "b.js"] "src//" "UAAA,NCEA,MAGG,N"
  have hgiven : Mappings.decodeAsGiven "UAAA,NCEA,MAGG,N".toList = .ok [unsorted] := by
    decide +kernel
  have hread := Mappings.decode_eq_ok_iff.mpr ⟨[unsorted], hgiven, rfl⟩
  obtain ⟨given, m, hgiven', hmap, hlocated⟩ := sourceFor_located hdata hread
  obtain rfl := Except.ok.inj (hgiven.symm.trans hgiven')
  obtain ⟨hlast, hnone, hfirst⟩ := isNearestAt_unsorted
  have hfile : Behind "src//" (.str "b.js") (.ok (.str "src/b.js")) := by
    rw [behind_iff, Value.shown_str]
    rfl
  refine ⟨m, hmap, hread, ?_, ?_, ?_⟩
  · exact (hlocated 1 12).1 _ (.place hlast rfl (by simp) rfl hfile)
  · exact (hlocated 1 7).1 _ (.noOrigin hnone rfl)
  · exact (hlocated 1 0).1 _ (.place hfirst rfl (by simp) rfl hfile)

end SourceMap

end FunctionPipeline

import FunctionPipeline.Proofs.Document.Merging
import FunctionPipeline.Proofs.Invocation.Calls
import FunctionPipeline.Proofs.Invocation.StoredBody

/-!
The normal form of a builder's run. What a run of calls comes to can be read off its seed and its
accepted calls: the last body under each name, the last connection details, and the left fold of
deep merge over the status updates. Refused calls leave no trace. The proof keeps four parts of the
builder apart: each change touches one of them, and a run folds the changes over it.
-/

namespace FunctionPipeline

namespace Call

def resourceName? : Call → Option String
  | .setResource (.str name) _ => some name
  | _ => none

def bodyUnder? (name : String) : Call → Option Entries
  | .setResource (.str other) body => if other = name then body.entries? else none
  | _ => none

def detailsGiven? : Call → Option Entries
  | .setDetails details => details.entries?
  | _ => none

def statusGiven? : Call → Option Entries
  | .updateStatus status => status.entries?
  | _ => none

def lastGiven? {α : Type} (given? : Call → Option α) : List Call → Option α
  | [] => none
  | c :: rest => (lastGiven? given? rest).or (given? c)

/-- Whether a call's arguments are finite and every integer in them can be shown. -/
def IsFinite : Call → Prop
  | .setResource _ body => body.hasReference = false
  | .setDetails details => details.hasReference = false ∧ details.hasLongInteger = false
  | .updateStatus status => status.hasReference = false

end Call

namespace Builder

def storedResource (given : Entries) : Resource := ⟨storedBody given, statedReadiness given, []⟩

/-- The names that are written first, in order, where nothing stood under them. -/
def newNames (seed : Resources) (calls : List Call) : List String :=
  ((calls.filterMap Call.resourceName?).filter fun name =>
    (Entries.field? seed name).isNone).eraseDups

/-- The status of a body as far as it is a mapping. -/
def statusIn (body : Entries) : Entries :=
  match Entries.field? body "status" with
  | some (.mapping _ entries) => entries
  | _ => []

/-- A body whose status has taken updates one by one; without updates it is as it was. -/
def withUpdates (body : Entries) : List Entries → Entries
  | [] => body
  | updates =>
      Entries.put body (.str "status") (.object (updates.foldl Entries.deepMerge (statusIn body)))

/-- A body is refused, or cannot be copied, or is stored under its name. -/
private theorem resourceOf_cases (name body : Value) :
    (∃ why, resourceOf name body = refused why) ∨
    (∃ given cause, body.entries? = some given ∧ given.asTree = .error cause ∧
      resourceOf name body = .error (.fault cause)) ∨
    ∃ text given, name = .str text ∧ body.entries? = some given ∧
      Value.entryReference given = false ∧
      resourceOf name body = .ok (text, storedResource given) := by
  cases name with
  | str text =>
      simp only [resourceOf]
      split
      · exact Or.inl ⟨_, rfl⟩
      · cases hbody : body.entries? with
        | none => exact Or.inl ⟨_, rfl⟩
        | some given =>
            cases htree : given.asTree with
            | error cause => exact Or.inr (Or.inl ⟨given, cause, rfl, htree, by simp only [htree]⟩)
            | ok tree =>
                obtain ⟨hreference, rfl⟩ := Entries.asTree_eq_ok_iff.mp htree
                simp only [htree]
                split
                · exact Or.inl ⟨_, rfl⟩
                · split
                  · exact Or.inl ⟨_, rfl⟩
                  · rw [withoutReadiness_thaw hreference]
                    exact Or.inr (Or.inr ⟨text, given, rfl, rfl, hreference, rfl⟩)
  | _ => exact Or.inl ⟨_, rfl⟩

/-- What an accepted call is, and the change it makes. -/
theorem change_cases {c : Call} {change : Change} (h : c.change = .ok change) :
    (∃ name body given, c = .setResource (.str name) body ∧ body.entries? = some given ∧
      Value.entryReference given = false ∧ change = .resource name (storedResource given)) ∨
    (∃ details given, c = .setDetails details ∧ details.entries? = some given ∧
      checkDetails given = .ok () ∧ change = .details given) ∨
    (∃ status given, c = .updateStatus status ∧ status.entries? = some given ∧
      Value.entryReference given = false ∧ change = .status given.thaw) := by
  cases c with
  | setResource name body =>
      left
      rcases resourceOf_cases name body with
        ⟨why, heq⟩ | ⟨given, cause, -, -, heq⟩ | ⟨text, given, rfl, hbody, hreference, heq⟩
      · rw [Call.change, heq] at h
        cases h
      · rw [Call.change, heq] at h
        cases h
      · rw [Call.change, heq] at h
        cases h
        exact ⟨text, body, given, rfl, hbody, hreference, rfl⟩
  | setDetails details =>
      right; left
      simp only [Call.change] at h
      cases hdetails : details.entries? with
      | none => simp only [hdetails] at h; cases h
      | some given =>
          simp only [hdetails] at h
          cases hcheck : checkDetails given with
          | error failure => simp only [hcheck] at h; cases h
          | ok _ =>
              simp only [hcheck] at h
              cases h
              exact ⟨details, given, rfl, hdetails, hcheck, rfl⟩
  | updateStatus status =>
      right; right
      simp only [Call.change] at h
      cases hstatus : status.entries? with
      | none => simp only [hstatus] at h; cases h
      | some given =>
          simp only [hstatus] at h
          cases htree : given.asTree with
          | error cause => simp only [htree] at h; cases h
          | ok tree =>
              simp only [htree] at h
              cases h
              obtain ⟨hreference, rfl⟩ := Entries.asTree_eq_ok_iff.mp htree
              exact ⟨status, given, rfl, hstatus, hreference, rfl⟩

/-- A key that is no text is told, unless it holds an integer too long to be shown. -/
private theorem checkDetails_cases {entries : Entries} {failure : Failure}
    (h : checkDetails entries = .error failure) :
    (∃ why, failure = .invalidResource why) ∨
      (∃ cause, failure = .fault cause) ∧ Value.entryLongInteger entries = true := by
  fun_induction checkDetails entries with
  | case1 => cases h
  | case2 key text rest ih =>
      rcases ih h with hwhy | ⟨hfault, hlong⟩
      · exact Or.inl hwhy
      · exact Or.inr ⟨hfault, by simp [Value.entryLongInteger, hlong]⟩
  | case3 key value rest hne =>
      cases h
      unfold badDetail
      split
      · exact Or.inl ⟨_, rfl⟩
      next cause hshown =>
        have hlong : key.hasLongInteger = true := by
          cases hkey : key.hasLongInteger with
          | true => rfl
          | false =>
              rw [Value.shown, hkey] at hshown
              cases hshown
        exact Or.inr ⟨⟨_, rfl⟩, by simp [Value.entryLongInteger, hlong]⟩

private theorem entries?_of_finite {v : Value} {given : Entries} (h : v.hasReference = false)
    (hgiven : v.entries? = some given) :
    Value.entryReference given = false ∧ v.hasLongInteger = Value.entryLongInteger given := by
  cases v with
  | mapping access entries =>
      have hentries : Value.entryReference entries = false := by
        simpa only [Value.hasReference] using h
      obtain rfl : entries = given := by simpa [Value.entries?, h] using hgiven
      exact ⟨hentries, by rw [Value.hasLongInteger]⟩
  | _ => cases hgiven

private theorem not_asTree_error {v : Value} {given : Entries} {cause : Fault}
    (hgiven : v.entries? = some given) (h : given.asTree = .error cause) :
    v.hasReference ≠ false := by
  intro hfinite
  rw [Entries.asTree_eq_ok_iff.mpr ⟨(entries?_of_finite hfinite hgiven).1, rfl⟩] at h
  cases h

/-- A call is refused as an invalid resource or with a fault, the latter only if its arguments are
not finite. -/
theorem refusal_cases {c : Call} {failure : Failure} (h : c.change = .error failure) :
    (∃ why, failure = .invalidResource why) ∨ (∃ cause, failure = .fault cause) ∧ ¬ c.IsFinite := by
  cases c with
  | setResource name body =>
      rcases resourceOf_cases name body with
        ⟨why, heq⟩ | ⟨given, cause, hgiven, htree, heq⟩ | ⟨text, given, -, -, -, heq⟩
      · rw [Call.change, heq] at h
        cases h
        exact Or.inl ⟨why, rfl⟩
      · rw [Call.change, heq] at h
        cases h
        exact Or.inr ⟨⟨cause, rfl⟩, not_asTree_error hgiven htree⟩
      · rw [Call.change, heq] at h
        cases h
  | setDetails details =>
      simp only [Call.change] at h
      cases hgiven : details.entries? with
      | none =>
          simp only [hgiven] at h
          cases h
          exact Or.inl ⟨_, rfl⟩
      | some given =>
          simp only [hgiven] at h
          cases hcheck : checkDetails given with
          | ok _ => simp only [hcheck] at h; cases h
          | error cause =>
              simp only [hcheck] at h
              cases h
              rcases checkDetails_cases hcheck with hwhy | ⟨hfault, hlong⟩
              · exact Or.inl hwhy
              · refine Or.inr ⟨hfault, ?_⟩
                rintro ⟨hfinite, hshort⟩
                rw [(entries?_of_finite hfinite hgiven).2, hlong] at hshort
                cases hshort
  | updateStatus status =>
      simp only [Call.change] at h
      cases hgiven : status.entries? with
      | none =>
          simp only [hgiven] at h
          cases h
          exact Or.inl ⟨_, rfl⟩
      | some given =>
          simp only [hgiven] at h
          cases htree : given.asTree with
          | ok _ => simp only [htree] at h; cases h
          | error cause =>
              simp only [htree] at h
              cases h
              exact Or.inr ⟨⟨cause, rfl⟩, not_asTree_error hgiven htree⟩

/-- Which names are new depends on the keys of the seed only. -/
theorem newNames_congr {seed other : Resources} (calls : List Call)
    (h : Entries.keys seed = Entries.keys other) : newNames seed calls = newNames other calls := by
  have hnone (name : String) :
      (Entries.field? seed name).isNone = (Entries.field? other name).isNone := by
    rw [Bool.eq_iff_iff, Option.isNone_iff_eq_none, Option.isNone_iff_eq_none,
      Entries.field?_eq_none_iff, Entries.field?_eq_none_iff, h]
  simp only [newNames, hnone]

theorem newNames_cons_of_mem {seed : Resources} {c : Call} {name : String} (calls : List Call)
    (hname : c.resourceName? = some name) (hmem : .str name ∈ Entries.keys seed) :
    newNames seed (c :: calls) = newNames seed calls := by
  have hsome : (Entries.field? seed name).isNone = false := by
    rw [Bool.eq_false_iff, ne_eq, Option.isNone_iff_eq_none, Entries.field?_eq_none_iff]
    exact fun hnot => hnot hmem
  simp [newNames, hname, hsome]

/-- After a write under a new name the other new names are those of the rest. -/
theorem newNames_cons_of_not_mem {seed : Resources} {c : Call} {name : String}
    (calls : List Call) (r : Resource) (hname : c.resourceName? = some name)
    (hmem : .str name ∉ Entries.keys seed) :
    newNames seed (c :: calls) = name :: newNames (Entries.put seed (.str name) r) calls := by
  have hnone : (Entries.field? seed name).isNone = true :=
    Option.isNone_iff_eq_none.mpr ((Entries.field?_eq_none_iff seed name).mpr hmem)
  simp only [newNames, List.filterMap_cons, hname, List.filter_cons, hnone, if_true,
    List.eraseDups_cons, List.filter_filter]
  congr 3
  funext other
  by_cases hother : other = name
  · subst other
    simp [Entries.field?_put_self]
  · simp [Entries.field?_put_of_ne seed r hother, hother]

theorem newNames_cons_of_none {seed : Resources} {c : Call} (calls : List Call)
    (hname : c.resourceName? = none) : newNames seed (c :: calls) = newNames seed calls := by
  simp [newNames, hname]

theorem withUpdates_cons (body update : Entries) (updates : List Entries) :
    withUpdates body (update :: updates) =
      withUpdates (Entries.put body (.str "status")
        (.object (Entries.deepMerge (statusIn body) update))) updates := by
  cases updates with
  | nil => rfl
  | cons next rest =>
      have hstatus (es : Entries) :
          statusIn (Entries.put body (.str "status") (.object es)) = es := by
        simp [statusIn, Entries.field?_put_self]
      simp only [withUpdates, hstatus, List.foldl_cons, Entries.put_put_self]

structure Made (b : Builder) (calls : List Call) (after : Builder) : Prop where
  written (name : String) :
    Entries.field? after.composed name =
      ((Call.lastGiven? (Call.bodyUnder? name) calls).map storedResource).or
        (Entries.field? b.composed name)
  kept (key : Value) (hkey : ∀ name, key ≠ .str name) :
    Entries.get? after.composed key = Entries.get? b.composed key
  order :
    Entries.keys after.composed =
      Entries.keys b.composed ++ (newNames b.composed calls).map Value.str
  details : after.details = (Call.lastGiven? Call.detailsGiven? calls).getD b.details
  composite : after.composite = withUpdates b.composite (calls.filterMap Call.statusGiven?)
  updates : after.updates = b.updates ++ (calls.filterMap Call.statusGiven?).map Entries.thaw

theorem made_nil (b : Builder) : Made b [] b where
  written _ := rfl
  kept _ _ := rfl
  order := by simp [newNames]
  details := rfl
  composite := rfl
  updates := by simp

/-- One accepted call in front of a run: the three kinds touch different parts. -/
theorem made_cons {b after : Builder} {c : Call} {change : Change} {calls : List Call}
    (hchange : c.change = .ok change) (h : Made (b.changed change) calls after) :
    Made b (c :: calls) after := by
  rcases change_cases hchange with
    ⟨name, body, given, rfl, hbody, -, rfl⟩ | ⟨details, given, rfl, hdetails, -, rfl⟩ |
    ⟨status, given, rfl, hstatus, -, rfl⟩
  · refine ⟨?_, ?_, ?_, ?_, ?_, ?_⟩
    · intro other
      rw [h.written other]
      simp only [Call.lastGiven?, Call.bodyUnder?, changed]
      by_cases hother : name = other
      · subst other
        rw [if_pos rfl, hbody, Entries.field?_put_self]
        cases Call.lastGiven? (Call.bodyUnder? name) calls <;> rfl
      · rw [if_neg hother, Entries.field?_put_of_ne _ _ (Ne.symm hother), Option.or_none]
    · intro key hkey
      rw [h.kept key hkey]
      simp only [changed, Entries.get?_put_str, Value.equals_str_false (hkey name),
        Bool.false_eq_true, if_false]
    · rw [h.order]
      by_cases hmem : Value.str name ∈ Entries.keys b.composed
      · rw [newNames_cons_of_mem calls rfl hmem]
        have hkeys := Entries.keys_put_of_mem b.composed name (storedResource given) hmem
        simp only [changed, newNames_congr calls hkeys, hkeys]
      · rw [newNames_cons_of_not_mem calls (storedResource given) rfl hmem]
        simp only [changed, Entries.keys_put_of_not_mem _ _ _ hmem, List.map_cons,
          List.append_assoc, List.cons_append, List.nil_append]
    · simpa [Call.lastGiven?, Call.detailsGiven?, changed] using h.details
    · simpa [Call.statusGiven?, changed, List.filterMap_cons] using h.composite
    · simpa [Call.statusGiven?, changed, List.filterMap_cons] using h.updates
  · refine ⟨?_, h.kept, ?_, ?_, ?_, ?_⟩
    · intro other
      simpa [Call.lastGiven?, Call.bodyUnder?, changed] using h.written other
    · rw [newNames_cons_of_none calls rfl]
      exact h.order
    · rw [h.details]
      simp only [changed, Call.lastGiven?, Call.detailsGiven?, hdetails]
      cases Call.lastGiven? Call.detailsGiven? calls <;> rfl
    · simpa [Call.statusGiven?, changed, List.filterMap_cons] using h.composite
    · simpa [Call.statusGiven?, changed, List.filterMap_cons] using h.updates
  · refine ⟨?_, h.kept, ?_, ?_, ?_, ?_⟩
    · intro other
      simpa [Call.lastGiven?, Call.bodyUnder?, changed] using h.written other
    · rw [newNames_cons_of_none calls rfl]
      exact h.order
    · simpa [Call.lastGiven?, Call.detailsGiven?, changed] using h.details
    · rw [h.composite, List.filterMap_cons]
      simp only [Call.statusGiven?, hstatus, withUpdates_cons, changed, Entries.deepMerge_thaw]
      rfl
    · rw [h.updates, List.filterMap_cons]
      simp only [Call.statusGiven?, hstatus, changed, List.map_cons, List.append_assoc,
        List.cons_append, List.nil_append]

/-- A run of accepted calls, by induction on the calls from the first one on. -/
theorem made_of_accepted (b : Builder) (calls : List Call)
    (h : ∀ c ∈ calls, c.isAccepted = true) :
    Made b calls ((changesOf calls).foldl changed b) := by
  induction calls generalizing b with
  | nil => exact made_nil b
  | cons c rest ih =>
      have hrest : ∀ call ∈ rest, call.isAccepted = true := fun call hmem => h call (by simp [hmem])
      cases hchange : c.change with
      | error failure =>
          exact absurd (h c (by simp)) (by simp [Call.not_isAccepted_of_refusal hchange])
      | ok change =>
          rw [changesOf_cons_ok rest hchange]
          exact made_cons hchange (ih (b.changed change) hrest)

/-- A call with finite arguments is accepted or refused as an invalid resource. -/
theorem isA_of_finite {c : Call} {failure : Failure} (hfinite : c.IsFinite)
    (h : c.change = .error failure) : failure.isA .invalidResource = true := by
  rcases refusal_cases h with ⟨why, rfl⟩ | ⟨-, hinfinite⟩
  · simp [Failure.isA, Failure.kind?, FailureKind.lineage]
  · exact absurd hfinite hinfinite

/-- The body of a state's composite; an unknown one has none. -/
def seedBody (seed : State) : Entries := (seed.composite.map Resource.body).getD []

def seedDetails (seed : State) : Entries := (seed.composite.map Resource.details).getD []

/-- The composite of a body and connection details; nothing at all is none. -/
def compositeOf (body details : Entries) : Option Resource :=
  if body.isEmpty && details.isEmpty then none else some ⟨body, .unspecified, details⟩

/-- What can be read off a seed and accepted calls about the response to them: under each name
the last body written there, stored as `storedResource` says, or else the seed's resource; the
names of the seed in their order and then the new ones in the order of their first write; the last
connection details or the seed's; the seed's body with its status folded over the updates; and the
updates in order. -/
structure NormalForm (seed : State) (calls : List Call) (r : Response) : Prop where
  written (name : String) :
    Entries.field? r.desired.resources name =
      ((Call.lastGiven? (Call.bodyUnder? name) calls).map storedResource).or
        (Entries.field? seed.resources name)
  kept (key : Value) (hkey : ∀ name, key ≠ .str name) :
    Entries.get? r.desired.resources key = Entries.get? seed.resources key
  order :
    Entries.keys r.desired.resources =
      Entries.keys seed.resources ++ (newNames seed.resources calls).map Value.str
  composite :
    r.desired.composite =
      compositeOf (withUpdates (seedBody seed) (calls.filterMap Call.statusGiven?))
        ((Call.lastGiven? Call.detailsGiven? calls).getD (seedDetails seed))
  updates : r.statusUpdates = (calls.filterMap Call.statusGiven?).map Entries.thaw

theorem normalForm_of_made {seed : State} {calls : List Call} {b : Builder}
    (h : Made (ofState seed) calls b) (tag : Value) (ttl : Int) (results : List Result) :
    NormalForm seed calls (b.response tag ttl results) where
  written := h.written
  kept := h.kept
  order := h.order
  composite := by
    have hbody : (ofState seed).composite = seedBody seed := by
      unfold ofState seedBody
      cases seed.composite <;> rfl
    have hdetails : (ofState seed).details = seedDetails seed := by
      unfold ofState seedDetails
      cases seed.composite <;> rfl
    rw [← hbody, ← hdetails, ← h.composite, ← h.details]
    rfl
  updates := h.updates

/-- A builder run in normal form. Whether a call is accepted does not depend on the builder. A run
that carries on past refused calls comes to an end if the arguments are finite; then it is the run
of the accepted calls alone, and its response is read off the seed and those calls. -/
theorem builder_run_normal_form (seed : State) (calls : List Call) (tag : Value) (ttl : Int)
    (results : List Result) :
    (∀ (b : Builder) (c : Call), (b.apply c).isOk = c.isAccepted) ∧
    ((∀ c ∈ calls, c.IsFinite) → ∃ b, (ofState seed).carryOn calls = .ok b) ∧
    ∀ b, (ofState seed).carryOn calls = .ok b →
      (ofState seed).applyAll (calls.filter Call.isAccepted) = .ok b ∧
      NormalForm seed (calls.filter Call.isAccepted) (b.response tag ttl results) := by
  refine ⟨?_, ?_, ?_⟩
  · intro b c
    rw [apply_eq_change, Call.isAccepted]
    cases c.change <;> rfl
  · intro hfinite
    exact ⟨_, carryOn_of_refusals _ calls fun c hc failure hfailure =>
      isA_of_finite (hfinite c hc) hfailure⟩
  · intro b hb
    have hrun := carryOn_eq_applyAll hb
    have haccepted : ∀ c ∈ calls.filter Call.isAccepted, c.isAccepted = true :=
      fun c hc => (List.mem_filter.mp hc).2
    have hmade := made_of_accepted (ofState seed) _ haccepted
    have hend : b = (changesOf (calls.filter Call.isAccepted)).foldl changed (ofState seed) := by
      rw [applyAll_of_accepted _ _ haccepted] at hrun
      exact (Except.ok.inj hrun).symm
    exact ⟨hrun, normalForm_of_made (hend ▸ hmade) tag ttl results⟩

/-- Calls of which the second and the last are refused. -/
def mixedCalls : List Call :=
  [.setResource (.str "bucket") (.object [(.str "apiVersion", .str "v1"),
      (.str "kind", .str "Bucket"), (.str "metadata", .object
        [(.str "annotations", .object [(.str readyAnnotation, .str "True")])])]),
    .setDetails (.list []),
    .updateStatus (.object [(.str "zone", .str "west")]),
    .setResource (.str "bucket") (.object [(.str "kind", .str "Bucket")])]

/-- A composite with a status and connection details, and two resources that are ready. -/
def seededState : State where
  composite := some
    { body := [(.str "kind", .str "XR"), (.str "status", .object [(.str "zone", .str "east")])],
      details := [(.str "user", .str "root")] }
  resources := [(.str "queue", { body := [], ready := .yes }),
    (.str "bucket", { body := [(.str "kind", .str "Bucket")], ready := .yes })]

theorem builder_run_normal_form_mixed :
    (∀ c ∈ mixedCalls, c.IsFinite) ∧ ∃ b, (ofState seededState).carryOn mixedCalls = .ok b ∧
      NormalForm seededState (mixedCalls.filter Call.isAccepted) (b.response .null 60 []) := by
  have hfinite : ∀ c ∈ mixedCalls, c.IsFinite := by
    simp only [mixedCalls, List.forall_mem_cons]
    exact ⟨by cbv, by cbv, by cbv, by cbv, by simp⟩
  obtain ⟨-, hends, hform⟩ := builder_run_normal_form seededState mixedCalls .null 60 []
  obtain ⟨b, hb⟩ := hends hfinite
  exact ⟨hfinite, b, hb, (hform b hb).2⟩

end Builder

end FunctionPipeline

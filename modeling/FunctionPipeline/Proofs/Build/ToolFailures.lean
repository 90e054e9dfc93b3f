import FunctionPipeline.Proofs.Build.Rejections

/-!
How failures of the tools surface. A run of a tool that gives nothing is told as a failure of the
tool's own kind, whatever its exit code and its output are, as long as the driver's reply has the
shape that it is taken apart as. Replies of another shape end in a fault: `tool_failures_surface`
says which they are, for the bundler and for the downgrader.
-/

namespace FunctionPipeline

open Operation

theorem Config.isShort_usualTimeout : Config.usualTimeout.IsShort := by
  have hlong : usualTimeout.hasLongInteger = false := by decide +kernel
  exact hlong

namespace Downgrader

/-- A reply that the downgrader can take apart: in a report of a failure the errors are a list that
starts with an object. -/
def Takes (reply : Entries) : Prop :=
  Tool.isOk reply = false →
    ∃ fields others, Tool.Lists (Tool.errorsIn reply usualReport) fields others

theorem reported_tells {reply : Entries} (hvalue : Json.IsValue (.object reply))
    (hshown : Entries.IsShown reply) :
    Tells .downgrade (∃ fields others, Tool.Lists (Tool.errorsIn reply usualReport) fields others)
      (reported reply) := by
  refine Tool.tells_of_firstError hvalue hshown ?_ ?_ id
  · intro fields others herrors hlookUp
    have hplace : ∃ place, placeIn (.object fields) = .ok place := by
      simp only [placeIn, hlookUp, bind, Except.bind]
      cases (Entries.field? fields "line").getD .null <;> exact ⟨_, rfl⟩
    obtain ⟨place, hplace⟩ := hplace
    simp only [hplace, hlookUp, bind, Except.bind, pure, Except.pure]
    exact .own ⟨fields, others, herrors⟩ rfl
  · intro first count hplain
    refine ⟨.noAttribute first.typeName "get", ?_⟩
    simp only [placeIn, Value.lookUp_of_not_mapping hplain, bind, Except.bind]

theorem codeOf_surfaces {fits : Prop} (hfits : fits) (reply : Entries) :
    Surfaces .downgrade fits (codeOf reply) := by
  unfold codeOf
  split
  · exact .ok hfits _
  · exact .own hfits rfl

/-- A downgrader that can be asked fails as one, unless the reply has another shape. -/
theorem downgrade_surfaces {d : Downgrader} {dialect : Value} (htold : d.tool.IsTellable)
    (hasked : d.CanBeAsked dialect) (source : String) (a : Activity) :
    Surfaces .downgrade (a.nextReply.Fits Takes) ((d.downgrade source dialect).runOn a).1 := by
  obtain ⟨command, hcommand⟩ := hasked.command
  obtain ⟨options, input, hoptions, hinput⟩ := hasked.payload source
  unfold downgrade
  rw [runOn_bind, runOn_ofExcept, hoptions]
  refine Tool.run_surfaces htold (fun _ => rfl) _ hcommand hinput ?_
  intro reply after hreply
  refine .of_reported (fun hok => ?_) fun hok => ?_
  · have htells := reported_tells (Reply.isValue_members hreply) (Reply.isShown_members hreply)
    exact htells.congr (forall_prop_of_true hok)
  · have htakes : Takes reply := fun hfailed => by rw [hok] at hfailed; cases hfailed
    rw [runOn_ofExcept]
    exact codeOf_surfaces htakes reply

end Downgrader

namespace Bundler

/-- A message that takes a count of further errors: a text, or a list, whose members the characters
of the count become. -/
def TakesCount (message : Value) : Prop :=
  (∃ s, message = .str s) ∨ ∃ items, message = .list items

/-- Errors that the bundler can take apart: a list that starts with an object, whose text takes the
count of the others if there are some. -/
def TakesErrors (reply : Entries) : Prop :=
  ∃ fields others, Tool.Lists (Tool.errorsIn reply usualReport) fields others ∧
    (others = [] ∨ TakesCount ((Entries.field? fields "text").getD (.str usualReport)))

/-- Warnings that it can take apart: objects, one by one. -/
def TakesWarnings (reply : Entries) : Prop :=
  ∃ warnings, ((Entries.field? reply "warnings").getD (.list [])).elements = .ok warnings ∧
    ∀ w ∈ warnings, w.isMapping = true

/-- A reply that the bundler can take apart. It looks into the errors of a failure, and otherwise
into the warnings. -/
def Takes (reply : Entries) : Prop :=
  if Tool.isOk reply then TakesWarnings reply else TakesErrors reply

theorem takes_of_ok {reply : Entries} (hok : Tool.isOk reply = true) :
    Takes reply ↔ TakesWarnings reply := by
  rw [Takes, if_pos hok]

theorem takes_of_not_ok {reply : Entries} (hok : Tool.isOk reply = false) :
    Takes reply ↔ TakesErrors reply := by
  rw [Takes, if_neg (by rw [hok]; exact Bool.false_ne_true)]

theorem withCount_cases (message : Value) (others : Nat) :
    ((others = 0 ∨ TakesCount message) ∧ ∃ counted, withCount message others = .ok counted) ∨
      (¬ (others = 0 ∨ TakesCount message) ∧ ∃ cause, withCount message others = .error cause) := by
  unfold withCount TakesCount
  by_cases hothers : others = 0
  · exact .inl ⟨.inl hothers, message, if_pos hothers⟩
  · simp only [if_neg hothers]
    cases message with
    | str s => exact .inl ⟨.inr (.inl ⟨s, rfl⟩), _, rfl⟩
    | sequence access items =>
        cases access with
        | writable => exact .inl ⟨.inr (.inr ⟨items, rfl⟩), _, rfl⟩
        | readOnly => exact .inr ⟨by simp [hothers], _, rfl⟩
    | _ => exact .inr ⟨by simp [hothers], _, rfl⟩

theorem reported_tells {reply : Entries} (hvalue : Json.IsValue (.object reply))
    (hshown : Entries.IsShown reply) (entry : Path) :
    Tells .bundle (TakesErrors reply) (reported reply entry) := by
  refine Tool.tells_of_firstError hvalue hshown ?_ ?_ ?_
  · intro fields others herrors hlookUp
    rcases withCount_cases ((Entries.field? fields "text").getD (.str usualReport)) others.length
      with ⟨hcount, message, hcounted⟩ | ⟨hcount, cause, hcause⟩
    · rw [List.length_eq_zero_iff] at hcount
      simp only [hlookUp, Nat.add_sub_cancel, hcounted, bind, Except.bind, pure, Except.pure]
      exact .own ⟨fields, others, herrors, hcount⟩ rfl
    · rw [List.length_eq_zero_iff] at hcount
      simp only [hlookUp, Nat.add_sub_cancel, hcause, bind, Except.bind]
      refine .fault (fun htakes => ?_) cause
      obtain ⟨_, _, hsame, hcounted⟩ := htakes
      cases herrors.symm.trans hsame
      exact hcount hcounted
  · intro first count hplain
    refine ⟨.noAttribute first.typeName "get", ?_⟩
    simp only [Value.lookUp_of_not_mapping hplain, bind, Except.bind]
  · rintro ⟨fields, others, herrors, -⟩
    exact ⟨fields, others, herrors⟩

theorem warningRecord_ok {warning : Value} (hshort : warning.IsShort)
    (h : warning.isMapping = true) : ∃ record, warningRecord warning = .ok record := by
  cases warning with
  | mapping access members =>
      have hlookUp : ∃ text, (Value.mapping access members).lookUp "text" = .ok text ∧
          (text.getD .null).IsShort := by
        cases hentries : (Value.mapping access members).entries? with
        | none => cases hentries
        | some es =>
            refine ⟨Entries.field? es "text", by rw [Value.lookUp, hentries], ?_⟩
            exact (hshort.entries? hentries).getD "text" rfl
      obtain ⟨text, htext, hshown⟩ := hlookUp
      simp only [warningRecord, htext, hshown.shown, bind, Except.bind, pure, Except.pure]
      exact ⟨_, rfl⟩
  | _ => cases h

theorem warningRecord_fault {warning : Value} (h : warning.isMapping = false) :
    ∃ cause, warningRecord warning = .error cause := by
  refine ⟨.noAttribute warning.typeName "get", ?_⟩
  simp only [warningRecord, Value.lookUp_of_not_mapping h, bind, Except.bind]

/-- Warnings that are objects are logged, one by one. -/
theorem logWarnings_ok {warnings : List Value} (hshort : ∀ w ∈ warnings, w.IsShort)
    (h : ∀ w ∈ warnings, w.isMapping = true) (a : Activity) :
    ((logWarnings warnings).runOn a).1 = .ok () := by
  induction warnings generalizing a with
  | nil => rfl
  | cons w ws ih =>
      rw [List.forall_mem_cons] at hshort h
      obtain ⟨record, hrecord⟩ := warningRecord_ok hshort.1 h.1
      simp only [logWarnings, runOn_bind, runOn_ofFault, hrecord, Except.mapError, runOn_log]
      exact ih hshort.2 h.2 _

/-- The first one of another kind ends in a fault. -/
theorem logWarnings_fault {warnings : List Value} (hshort : ∀ w ∈ warnings, w.IsShort)
    (h : ¬ ∀ w ∈ warnings, w.isMapping = true) (a : Activity) :
    ∃ cause, ((logWarnings warnings).runOn a).1 = .error (.fault cause) := by
  induction warnings generalizing a with
  | nil => exact absurd (by simp) h
  | cons w ws ih =>
      rw [List.forall_mem_cons] at hshort h
      cases hmapping : w.isMapping with
      | true =>
          obtain ⟨record, hrecord⟩ := warningRecord_ok hshort.1 hmapping
          simp only [logWarnings, runOn_bind, runOn_ofFault, hrecord, Except.mapError, runOn_log]
          exact ih hshort.2 (fun hall => h ⟨hmapping, hall⟩) _
      | false =>
          obtain ⟨cause, hcause⟩ := warningRecord_fault hmapping
          refine ⟨cause, ?_⟩
          simp only [logWarnings, runOn_bind, runOn_ofFault, hcause, Except.mapError]

theorem codeOf_surfaces {fits : Prop} (hfits : fits) (b : Bundler) (reply : Entries)
    (entry : Path) : Surfaces .bundle fits (b.codeOf reply entry) := by
  unfold codeOf
  split
  · simp only
    split
    · exact .ok hfits _
    · exact .own hfits rfl
  · exact .own hfits rfl

/-- With the warnings of a reply logged, the bundle is the code in it. -/
theorem warned_surfaces (b : Bundler) {reply : Entries} (entry : Path)
    (hshown : Entries.IsShown reply) (a : Activity) :
    Surfaces .bundle (TakesWarnings reply) ((do
      logWarnings (← Operation.ofFault ((Entries.field? reply "warnings").getD (.list [])).elements)
      Operation.ofExcept (b.codeOf reply entry) : Operation String).runOn a).1 := by
  have hfound : ((Entries.field? reply "warnings").getD (.list [])).IsShown := by
    cases hfield : Entries.field? reply "warnings" with
    | none => exact ⟨rfl, rfl⟩
    | some v => exact hshown.field? hfield
  rw [runOn_bind, runOn_ofFault]
  cases helements : ((Entries.field? reply "warnings").getD (.list [])).elements with
  | error cause =>
      refine .fault (fun htakes => ?_) cause
      obtain ⟨_, hwarnings, -⟩ := htakes
      rw [helements] at hwarnings
      cases hwarnings
  | ok warnings =>
      have hshort := hfound.elements helements
      by_cases hmappings : ∀ w ∈ warnings, w.isMapping = true
      · have htakes : TakesWarnings reply := ⟨warnings, helements, hmappings⟩
        simp only [Except.mapError]
        rw [runOn_bind_of_ok (logWarnings_ok hshort hmappings a), runOn_ofExcept]
        exact codeOf_surfaces htakes b reply entry
      · obtain ⟨cause, hcause⟩ := logWarnings_fault hshort hmappings a
        simp only [Except.mapError]
        rw [runOn_bind_of_error hcause]
        refine .fault (fun htakes => ?_) cause
        obtain ⟨_, hwarnings, hall⟩ := htakes
        rw [helements] at hwarnings
        cases hwarnings
        exact hmappings hall

structure CanBeAsked (b : Bundler) : Prop where
  command : ∃ command, b.tool.command = .ok command
  options : ∀ e ∈ b.options, Json.IsWritten e

theorem CanBeAsked.payload {b : Bundler} (h : b.CanBeAsked) (entry : Path) :
    ∃ input, Json.write .refuse (b.payload entry) = .ok input := by
  refine Json.write_object (Entries.forall_mem_update ?_ fun e he => ⟨(h.options e he).1, ?_⟩)
  · simp [Json.IsWritten, Json.write]
  · exact h.options e he

def answered (b : Bundler) (entry : Path) (reply : Entries) : Operation String := do
  if !Tool.isOk reply then throw (← Operation.ofFault (reported reply entry))
  logWarnings (← Operation.ofFault ((Entries.field? reply "warnings").getD (.list [])).elements)
  Operation.ofExcept (b.codeOf reply entry)

/-- On an entry module that is there the bundler runs its driver and goes by the reply. -/
theorem bundle_of_entry (b : Bundler) {entry : Path} {a : Activity} (hnull : entry.hasNull = false)
    (hfile : a.files.holdsFile entry.resolved = .ok true) :
    (b.bundle entry).runOn a = (b.tool.run failing (b.payload entry.resolved)
      (some (b.tool.directory.getD entry.resolved.parent)) >>=
        b.answered entry.resolved).runOn a := by
  have hget : (get : Operation Activity).runOn a = (.ok a, a) := rfl
  unfold bundle
  rw [hnull, if_neg Bool.false_ne_true]
  rw [runOn_bind, hget]
  simp only
  rw [runOn_bind, runOn_ofFault, hfile]
  rfl

/-- A bundler that can be asked fails as one on an entry module that is there, unless the reply has
another shape. -/
theorem bundle_surfaces {b : Bundler} (htold : b.tool.IsTellable) (hasked : b.CanBeAsked)
    {entry : Path} {a : Activity} (hnull : entry.hasNull = false)
    (hfile : a.files.holdsFile entry.resolved = .ok true) :
    Surfaces .bundle (a.nextReply.Fits Takes) ((b.bundle entry).runOn a).1 := by
  obtain ⟨command, hcommand⟩ := hasked.command
  obtain ⟨input, hinput⟩ := hasked.payload entry.resolved
  rw [bundle_of_entry b hnull hfile]
  refine Tool.run_surfaces htold (fun _ => rfl) _ hcommand hinput ?_
  intro reply after hreply
  have hshown := Reply.isShown_members hreply
  refine .of_reported (fun hok => ?_) fun hok => ?_
  · have htells := reported_tells (Reply.isValue_members hreply) hshown entry.resolved
    exact htells.congr (takes_of_not_ok hok)
  · exact (warned_surfaces b entry.resolved hshown after).congr (takes_of_ok hok)

/-- The bundler that is asked for without settings. -/
theorem canBeAsked_usual {c : Config.Bundling} (h : Config.Bundling.ofSection none = .ok c) :
    (ofConfig c).tool.IsTellable ∧ (ofConfig c).CanBeAsked := by
  cases h
  refine ⟨⟨rfl, Config.isShort_usualTimeout⟩, ⟨_, rfl⟩, ?_⟩
  simp [ofConfig, Config.Bundling.options, Config.setting, Entries.field?_nil, Json.IsWritten,
    Json.write, Json.writeAll, bind, Except.bind, pure, Except.pure]

end Bundler

/-- The downgrader that is asked for without settings, for a dialect that there is. -/
theorem Downgrader.canBeAsked_usual {c : Config.Downgrading}
    (h : Config.Downgrading.ofSection none = .ok c) {name : String}
    (hname : name ∈ Dialect.known.map (·.1)) :
    (ofConfig c).tool.IsTellable ∧ (ofConfig c).CanBeAsked (.str name) := by
  cases h
  have hnames : name = "commonjs" ∨ name = "es5" := by simpa [Dialect.known] using hname
  refine ⟨⟨rfl, Config.isShort_usualTimeout⟩, ⟨_, rfl⟩, ?_⟩
  rcases hnames with rfl | rfl
  · exact options_of_writes (by decide +kernel)
  · exact options_of_writes (by decide +kernel)

namespace Build

/-- Without settings, the bundler on an entry module that is there and the downgrader for a dialect
that there is end with a text or a failure of their own kinds, whatever the next run of a driver
ends with, if the reply can be read and has the shape that they take it apart as. Otherwise both end
in a fault. -/
theorem tool_failures_surface {bundling : Config.Bundling} {downgrading : Config.Downgrading}
    (hbundling : Config.Bundling.ofSection none = .ok bundling)
    (hdowngrading : Config.Downgrading.ofSection none = .ok downgrading) (a : Activity) :
    (∀ entry : Path, entry.hasNull = false → a.files.holdsFile entry.resolved = .ok true →
      Surfaces .bundle (a.nextReply.Fits Bundler.Takes)
        (((Bundler.ofConfig bundling).bundle entry).runOn a).1) ∧
    ∀ source, ∀ dialect ∈ Dialect.known.map (·.1),
      Surfaces .downgrade (a.nextReply.Fits Downgrader.Takes)
        (((Downgrader.ofConfig downgrading).downgrade source (.str dialect)).runOn a).1 := by
  constructor
  · intro entry hnull hfile
    obtain ⟨htold, hasked⟩ := Bundler.canBeAsked_usual hbundling
    exact Bundler.bundle_surfaces htold hasked hnull hfile
  · intro source dialect hdialect
    obtain ⟨htold, hasked⟩ := Downgrader.canBeAsked_usual hdowngrading hdialect
    exact Downgrader.downgrade_surfaces htold hasked source a

def entryFiles : FileTree := ⟨[(["work"], .directory), (["work", "a.js"], .file [])]⟩

theorem holdsFile_entry : entryFiles.holdsFile (Path.ofText "a.js").resolved = .ok true :=
  ok_of_toOption (by decide +kernel)

/-- A reply that reports two errors, the first with a text that takes the count of the other. -/
def twoErrors : Reply :=
  .finished 0 ("\x7b\"ok\": false, \"errors\": [\x7b\"text\": \"Unexpected token\"\x7d, " ++
    "\x7b\"text\": \"Unexpected end\"\x7d]\x7d") ""

def tokenError : Entries := [(.str "text", .str "Unexpected token")]

def endError : Entries := [(.str "text", .str "Unexpected end")]

def twoErrorsMembers : Entries :=
  [(.str "ok", .bool false), (.str "errors", .list [.object tokenError, .object endError])]

theorem members_twoErrors : twoErrors.members? = some twoErrorsMembers := by decide +kernel

theorem fits_twoErrors :
    twoErrors.Fits Bundler.Takes ∧ twoErrors.Fits Downgrader.Takes := by
  have hok : Tool.isOk twoErrorsMembers = false := by
    simp [Tool.isOk, twoErrorsMembers, Entries.orElse, Entries.field?_cons, Value.isTrue]
  have hlists (usual : String) : Tool.Lists (Tool.errorsIn twoErrorsMembers usual) tokenError
      [.object endError] := by
    simp [Tool.Lists, Tool.errorsIn, twoErrorsMembers, Entries.orElse, Entries.field?_cons,
      Value.isTrue]
  have hcount : Bundler.TakesCount ((Entries.field? tokenError "text").getD
      (.str Bundler.usualReport)) :=
    .inl ⟨"Unexpected token", by simp [tokenError, Entries.field?_cons]⟩
  constructor
  · rw [Reply.fits_of_members members_twoErrors, Bundler.takes_of_not_ok hok]
    exact ⟨tokenError, _, hlists _, .inr hcount⟩
  · rw [Reply.fits_of_members members_twoErrors]
    exact fun _ => ⟨tokenError, _, hlists _⟩

theorem tool_failures_surface_reported :
    ∃ bundling downgrading, Config.Bundling.ofSection none = .ok bundling ∧
      Config.Downgrading.ofSection none = .ok downgrading ∧
      (Path.ofText "a.js").hasNull = false ∧
      entryFiles.holdsFile (Path.ofText "a.js").resolved = .ok true ∧
      twoErrors.Fits Bundler.Takes ∧ twoErrors.Fits Downgrader.Takes ∧
      Surfaces .bundle (twoErrors.Fits Bundler.Takes)
        (((Bundler.ofConfig bundling).bundle (Path.ofText "a.js")).runOn
          { replies := [twoErrors], files := entryFiles }).1 ∧
      Surfaces .downgrade (twoErrors.Fits Downgrader.Takes)
        (((Downgrader.ofConfig downgrading).downgrade "x" (.str "es5")).runOn
          { replies := [twoErrors], files := entryFiles }).1 := by
  obtain ⟨hbundle, hdowngrade⟩ := tool_failures_surface rfl rfl
    { replies := [twoErrors], files := entryFiles }
  have hnull : (Path.ofText "a.js").hasNull = false := by decide +kernel
  refine ⟨_, _, rfl, rfl, hnull, holdsFile_entry, fits_twoErrors.1, fits_twoErrors.2, ?_, ?_⟩
  · exact hbundle _ hnull holdsFile_entry
  · exact hdowngrade "x" "es5" (by decide +kernel)

def nullWarnings : Reply :=
  .finished 0 "\x7b\"ok\": true, \"warnings\": null, \"code\": \"x = 1\"\x7d" ""

def textError : Reply :=
  .finished 0 "\x7b\"ok\": false, \"errors\": [\"Unexpected token\"]\x7d" ""

/-- Warnings that are null end a bundle in a fault, and an error that is a text a downgrade. -/
theorem tool_failures_not_surfaced :
    ∃ bundling downgrading, Config.Bundling.ofSection none = .ok bundling ∧
      Config.Downgrading.ofSection none = .ok downgrading ∧
      (Path.ofText "a.js").hasNull = false ∧
      entryFiles.holdsFile (Path.ofText "a.js").resolved = .ok true ∧
      (((Bundler.ofConfig bundling).bundle (Path.ofText "a.js")).runOn
        { replies := [nullWarnings], files := entryFiles }).1 =
          .error (.fault (.notIterable "NoneType")) ∧
      (((Downgrader.ofConfig downgrading).downgrade "x" (.str "commonjs")).runOn
        { replies := [textError] }).1 = .error (.fault (.noAttribute "str" "get")) := by
  have hnull : (Path.ofText "a.js").hasNull = false := by decide +kernel
  refine ⟨_, _, rfl, rfl, hnull, holdsFile_entry, ?_, ?_⟩
  · exact error_of_errorOf? (by decide +kernel)
  · exact error_of_errorOf? (by decide +kernel)

end Build

end FunctionPipeline

import FunctionPipeline.Proofs.Config.Settings
import FunctionPipeline.Proofs.Document.Identity

/-!
What becomes of a configuration's document. It is refused, or it gives a configuration that a build
can use, unless one of the settings that nothing checks stands in the way: `validated_cases` says
which they are, for every document.
-/

namespace FunctionPipeline.Config

def validated (document : Value) (path : Option Path) : Except Failure Config := do
  let c ← ofValue document path
  c.check
  return c

structure Checked (c : Config) : Prop where
  format : ∃ name ∈ logFormats, c.logFormat = .str name
  external : ∀ name ∈ c.bundler.external, ∃ s, name = .str s
  annotations : ∀ e ∈ c.manifest.annotations, ∃ s, e.2 = .str s
  timeouts : isTimeout c.bundler.timeout = true ∧ isTimeout c.downgrader.timeout = true

/-- A configuration that a build can use: what is asked of its log is answered, and its timeouts are
numbers above zero. -/
structure Usable (c : Config) : Prop extends Checked c where
  level : ∃ level, c.logLevel = .ok level
  file (today : String) : ∃ file, c.logFile today = .ok file
  bundlerTimeout : IsPositive c.bundler.timeout
  downgraderTimeout : IsPositive c.downgrader.timeout

def settingOf? (document : Value) (part key : String) : Option Value :=
  settingIn? (document.part? part) key

/-- A document whose settings are plain where nothing checks them. -/
structure HasPlainSettings (document : Value) : Prop where
  bundlerTimeout (origin : Nat) :
    settingOf? document "bundler" "timeout_s" ≠ some (.float (.nan origin))
  downgraderTimeout (origin : Nat) :
    settingOf? document "downgrader" "timeout_s" ≠ some (.float (.nan origin))
  level (v : Value) (hv : settingOf? document "logging" "level" = some v) :
    (∃ s, v = .str s) ∨ ∃ octets, v = .bytes octets
  output (v : Value) (hv : settingOf? document "logging" "output" = some v)
    (htrue : v.isTrue = true) : ∃ s, v = .str s

/-- The faults of settings that nothing checks before they are used: directories that are no texts,
and integers that a refusal cannot tell. -/
inductive IsUnchecked (document : Value) : Fault → Prop
  | bundlerDirectory {cause : Fault}
      (h : IsNoPath (settingOf? document "bundler" "working_dir") cause) :
      IsUnchecked document cause
  | downgraderDirectory {cause : Fault}
      (h : IsNoPath (settingOf? document "downgrader" "working_dir") cause) :
      IsUnchecked document cause
  | untold (h : document.hasLongInteger = true) : IsUnchecked document .longInteger

structure Reads (document : Value) (c : Config) : Prop where
  bundlerTimeout :
    c.bundler.timeout = (settingOf? document "bundler" "timeout_s").getD usualTimeout
  downgraderTimeout :
    c.downgrader.timeout = (settingOf? document "downgrader" "timeout_s").getD usualTimeout
  logging (key : String) : Entries.field? c.logging key = settingOf? document "logging" key
  short (h : document.IsShort) : c.bundler.AreShort ∧ Entries.IsShort c.manifest.annotations

theorem part?_mapping (access : Access) (entries : Entries) :
    ∃ es, (if (Value.mapping access entries).isTrue then .mapping access entries
        else Value.object []).entries? = some es ∧
      ∀ key, Entries.field? es key = (Value.mapping access entries).part? key := by
  cases entries with
  | nil => exact ⟨[], rfl, fun key => rfl⟩
  | cons e es => exact ⟨_, rfl, fun key => rfl⟩

theorem settles_ofValue (access : Access) (entries : Entries) (path : Option Path) :
    Settles (Reads (.mapping access entries)) (IsUnchecked (.mapping access entries))
      (ofValue (.mapping access entries) path) := by
  obtain ⟨es, hes, hparts⟩ := part?_mapping access entries
  unfold ofValue
  rw [hes]
  simp only [hparts]
  have hpart {name : String} (h : (Value.mapping access entries).IsShort) (v : Value)
      (hv : (Value.mapping access entries).part? name = some v) : v.IsShort := h.part? hv
  refine ((Bundling.settles_ofSection _).mono (fun _ h => h)
    fun _ => .bundlerDirectory).bind fun bundler hbundler => ?_
  refine ((Downgrading.settles_ofSection _).mono (fun _ h => h)
    fun _ => .downgraderDirectory).bind fun downgrader hdowngrader => ?_
  refine ((Composition.settles_ofSection _).mono (fun _ h => h)
    fun _ hnone => hnone.elim).bind fun manifest hmanifest => ?_
  refine (settles_sectionOf _ _).bind fun logging hlogging => ?_
  exact ⟨hbundler.1, hdowngrader, field?_sectionOf hlogging,
    fun h => ⟨hbundler.2 (hpart h), hmanifest (hpart h)⟩⟩

theorem settles_check (c : Config) :
    Settles (fun _ => c.Checked)
      (IsUntold (c.bundler.AreShort ∧ Entries.IsShort c.manifest.annotations)) c.check := by
  unfold check
  refine (((Bundling.settles_check _).inSection _).mono (fun _ h => h)
    fun _ h => ⟨h.1, fun hshort => h.2 hshort.1⟩).bind fun _ hbundler => ?_
  refine (((Downgrading.settles_check _).inSection _).mono (fun _ h => h)
    fun _ hnone => hnone.elim).bind fun _ hdowngrader => ?_
  refine (((Composition.settles_check _).inSection _).mono (fun _ h => h)
    fun _ h => ⟨h.1, fun hshort => h.2 hshort.2⟩).bind fun _ hannotations => ?_
  refine .checkLast (fun _ => trivial) fun hformat => ?_
  exact ⟨of_isOneOf_texts (by simpa using hformat), hbundler.2, hannotations,
    hbundler.1, hdowngrader⟩

/-- A timeout that passed its check is above zero unless the document sets it to not-a-number. -/
theorem isPositive_iff {found : Option Value} (h : isTimeout (found.getD usualTimeout) = true) :
    IsPositive (found.getD usualTimeout) ↔ ∀ origin, found ≠ some (.float (.nan origin)) := by
  constructor
  · rintro ⟨place, hplace, -⟩ origin rfl
    cases hplace
  · intro hnumber
    rcases positive_or_nan h with hpositive | ⟨origin, horigin⟩
    · exact hpositive
    · cases found with
      | none => cases horigin
      | some v => exact absurd (congrArg some horigin) (hnumber origin)

theorem logLevel_iff {c : Config} :
    (∃ level, c.logLevel = .ok level) ↔
      ∀ v, Entries.field? c.logging "level" = some v →
        (∃ s, v = .str s) ∨ ∃ octets, v = .bytes octets := by
  unfold logLevel setting
  cases Entries.field? c.logging "level" with
  | none => simp
  | some v => cases v <;> simp

theorem logFile_iff {c : Config} (today : String) :
    (∃ file, c.logFile today = .ok file) ↔
      ∀ v, Entries.field? c.logging "output" = some v → v.isTrue = true → ∃ s, v = .str s := by
  unfold logFile Entries.orElse
  cases Entries.field? c.logging "output" with
  | none => simp
  | some v =>
      cases htrue : v.isTrue with
      | false => simp [htrue]
      | true => cases v <;> simp_all [Value.isTrue]

/-- A configuration that passed the checks can be used just if its document is plain where nothing
checks it. -/
theorem usable_iff {document : Value} {c : Config} (hreads : Reads document c) (h : c.Checked) :
    c.Usable ↔ HasPlainSettings document := by
  have hbundler := isPositive_iff (hreads.bundlerTimeout ▸ h.timeouts.1)
  have hdowngrader := isPositive_iff (hreads.downgraderTimeout ▸ h.timeouts.2)
  rw [← hreads.bundlerTimeout] at hbundler
  rw [← hreads.downgraderTimeout] at hdowngrader
  have hlevel := logLevel_iff (c := c)
  have hfile (today : String) := logFile_iff (c := c) today
  simp only [hreads.logging] at hlevel hfile
  constructor
  · intro husable
    exact ⟨hbundler.mp husable.bundlerTimeout, hdowngrader.mp husable.downgraderTimeout,
      hlevel.mp husable.level, (hfile "").mp (husable.file "")⟩
  · intro hplain
    exact ⟨h, hlevel.mpr hplain.level, fun today => (hfile today).mpr hplain.output,
      hbundler.mpr hplain.bundlerTimeout, hdowngrader.mpr hplain.downgraderTimeout⟩

theorem settles_validated (access : Access) (entries : Entries) (path : Option Path) :
    Settles (fun c => c.Checked ∧ (c.Usable ↔ HasPlainSettings (.mapping access entries)))
      (IsUnchecked (.mapping access entries)) (validated (.mapping access entries) path) := by
  refine (settles_ofValue access entries path).bind fun c hreads => ?_
  refine ((settles_check c).mono (fun _ h => h) fun cause huntold => ?_).bind fun _ hchecked => ?_
  · obtain ⟨rfl, hshort⟩ := huntold
    refine .untold ?_
    cases hlong : (Value.mapping access entries).hasLongInteger with
    | true => rfl
    | false => exact absurd (hreads.short hlong) hshort
  · exact ⟨hchecked, usable_iff hreads hchecked⟩

/-- Every document that is a mapping is refused as a configuration, or its fault is one of a setting
that nothing checks, or it gives a configuration that passed the checks. Such a configuration can be
used just if the remaining settings are plain: no timeout is not-a-number, the level of the log is a
text or octets, and what the log is written to is a text if it counts as anything. -/
theorem validated_cases (access : Access) (entries : Entries) (path : Option Path) :
    let document := Value.mapping access entries
    (∃ cause, validated document path = .error (.config cause)) ∨
      (∃ cause, validated document path = .error (.fault cause) ∧ IsUnchecked document cause) ∨
      ∃ c, validated document path = .ok c ∧ c.Checked ∧
        (c.Usable ↔ HasPlainSettings document) := by
  have hsettles := settles_validated access entries path
  cases hend : validated (.mapping access entries) path with
  | ok c =>
      rw [hend] at hsettles
      exact .inr (.inr ⟨c, hend, hsettles⟩)
  | error failure =>
      rw [hend] at hsettles
      cases failure with
      | config cause => exact .inl ⟨cause, hend⟩
      | fault cause => exact .inr (.inl ⟨cause, hend, hsettles⟩)
      | _ => exact hsettles.elim

/-- A directory that is a number ends in a fault, and a timeout that is not-a-number passes. -/
theorem validated_not_contained :
    validated (.object [(.str "bundler", .object [(.str "working_dir", .int 5)])]) none =
        .error (.fault (.notPath "int")) ∧
      ∃ c, validated (.object [(.str "bundler", .object [(.str "timeout_s", .float (.nan 0))])])
          none = .ok c ∧ ¬ IsPositive c.bundler.timeout := by
  refine ⟨error_of_errorOf? (by decide +kernel), ?_⟩
  have htimeout : (validated (.object [(.str "bundler",
      .object [(.str "timeout_s", .float (.nan 0))])]) none).toOption.map (·.bundler.timeout) =
        some (.float (.nan 0)) := by decide +kernel
  obtain ⟨c, hc, hnan⟩ := Option.map_eq_some_iff.mp htimeout
  refine ⟨c, ok_of_toOption hc, ?_⟩
  rw [hnan]
  rintro ⟨place, hplace, -⟩
  cases hplace

end FunctionPipeline.Config

import FunctionPipeline.Build.Stages
import FunctionPipeline.Proofs.Document.Identity
import FunctionPipeline.Proofs.SourceMap.Inline
import FunctionPipeline.Proofs.Tool.Replies

/-!
Rejected syntax. When the downgrader's driver reports a place in the bundle, the build fails with
the reported message. If the bundle's own source map is usable, the place is the one in the modules
that covers the reported one, or the reported one if none does.
-/

namespace FunctionPipeline

open Operation

namespace Downgrader

/-- A downgrader whose driver can be started and asked for a dialect, whatever the source is. -/
structure CanBeAsked (d : Downgrader) (dialect : Value) : Prop where
  command : ∃ command, d.tool.command = .ok command
  options : ∃ options text, d.options dialect = .ok options ∧
    Json.write .refuse options = .ok text

/-- A reply in which the driver reports a failure, first of all an error with a message and a place
whose line and column are integers. -/
structure Reports (reply : Entries) (message : String) (file : Value) (line column : Int) :
    Prop where
  refused : Tool.isOk reply = false
  error : ∃ fields others, Entries.field? reply "errors" = some (.list (.object fields :: others)) ∧
    Entries.field? fields "text" = some (.str message) ∧
    (Entries.field? fields "file").getD .null = file ∧
    Entries.field? fields "line" = some (.int line) ∧
    Entries.field? fields "column" = some (.int column)

theorem reported_of_reports {reply : Entries} {message : String} {file : Value} {line column : Int}
    (hshown : Entries.IsShown reply) (h : Reports reply message file line column) :
    reported reply =
      .ok (.downgrade (.str message) (some ⟨file, .int line, .int column⟩) none) := by
  obtain ⟨fields, others, herrors, htext, rfl, hline, hcolumn⟩ := h.error
  have htree : (Value.list (.object fields :: others)).hasReference = false :=
    (hshown.field? herrors).1
  have hfields : (Value.object fields).hasReference = false := by
    simp only [Value.hasReference, Value.anyReference, Bool.or_eq_false_iff] at htree ⊢
    exact htree.1
  have hfirst : (Value.list (.object fields :: others)).first = .ok (.object fields) := by
    simp only [Value.first, Value.items?, htree, Bool.false_eq_true, if_false, Option.getD_some]
  have hlookUp (name : String) :
      (Value.object fields).lookUp name = .ok (Entries.field? fields name) := by
    simp only [Value.lookUp, Value.entries?, hfields, Bool.false_eq_true, if_false]
  have herror : Entries.orElse reply "errors" (.list [.object [(.str "text", .str usualReport)]]) =
      .list (.object fields :: others) := by
    rw [Entries.orElse, herrors]
    rfl
  simp only [reported, Tool.firstError, herror, hfirst, placeIn, hlookUp, hline, hcolumn, htext,
    Option.getD_some, bind, Except.bind, pure, Except.pure]

/-- A source can be asked for if the options can. -/
theorem CanBeAsked.payload {d : Downgrader} {dialect : Value} (h : d.CanBeAsked dialect)
    (source : String) : ∃ options input, d.options dialect = .ok options ∧
      Json.write .refuse (payload source options) = .ok input := by
  obtain ⟨options, text, hoptions, htext⟩ := h.options
  have hwritten : ∃ input, Json.write .refuse (Downgrader.payload source options) = .ok input :=
    Json.write_object (by simp [Json.IsWritten, Json.write, htext])
  obtain ⟨input, hinput⟩ := hwritten
  exact ⟨options, input, hoptions, hinput⟩

/-- Whether the options can be asked for can be tried out. -/
theorem options_of_writes {d : Downgrader} {dialect : Value}
    (h : (match d.options dialect with
      | .ok options => (Json.write .refuse options).toBool
      | .error _ => false) = true) :
    ∃ options text, d.options dialect = .ok options ∧ Json.write .refuse options = .ok text := by
  split at h
  next options hoptions =>
    cases htext : Json.write .refuse options with
    | ok text => exact ⟨options, text, hoptions, htext⟩
    | error cause =>
        rw [htext] at h
        cases h
  next => cases h

/-- A report ends the downgrade with the message and the reported place. -/
theorem downgrade_of_reports {d : Downgrader} {dialect : Value} (source : String) {a : Activity}
    {reply : Entries} {message : String} {file : Value} {line column : Int}
    (hasked : d.CanBeAsked dialect) (hreply : a.nextReply.members? = some reply)
    (h : Reports reply message file line column) :
    ((d.downgrade source dialect).runOn a).1 =
      .error (.downgrade (.str message) (some ⟨file, .int line, .int column⟩) none) := by
  obtain ⟨command, hcommand⟩ := hasked.command
  obtain ⟨options, input, hoptions, hinput⟩ := hasked.payload source
  have hran := Tool.run_of_members failing d.tool.directory hcommand hinput hreply
  have hreported := reported_of_reports (Reply.isShown_members hreply) h
  unfold downgrade
  rw [runOn_bind, runOn_ofExcept, hoptions]
  simp only
  rw [runOn_bind_of_ok hran]
  simp only [h.refused, Bool.not_false, if_true, runOn_bind, runOn_ofFault, hreported,
    Except.mapError]
  rfl

end Downgrader

namespace Build

/-- The place in the modules of a bundle that covers a position of it, by the map in the bundle. -/
def Covered (bundled : String) (line column : Int) (original : Location) : Prop :=
  ∃ m, SourceMap.ofCode bundled = .ok (some m) ∧ m.Covers line column original

/-- A rejection as it is told: of the place in the modules, beside the reported one, or of the
reported one alone. -/
def told (message : String) (reported : Location) : Option Location → Failure
  | some original => .downgrade (.str message) (some original) (some reported)
  | none => .downgrade (.str message) (some reported) none

/-- In a bundle with a usable map every position is looked up, and the answer is what covers it. -/
theorem sourceOf_of_usable {bundled : String} (h : SourceMap.HasUsableMap bundled) (file : Value)
    (line column : Int) :
    ∃ place, sourceOf bundled ⟨file, .int line, .int column⟩ = .ok place ∧
      ∀ original, place = some original ↔ Covered bundled line column original := by
  have hcolumn :
      (if (Value.int column).isTrue then Value.int column else .int 0) = .int column := by
    by_cases hzero : column = 0 <;> simp [Value.isTrue, hzero]
  rcases SourceMap.ofCode_of_usable h with hnone | ⟨m, hmap, hsound⟩
  · refine ⟨none, ?_, fun original => ?_⟩
    · simp only [sourceOf, hnone, bind, Except.bind, pure, Except.pure]
    · constructor
      · intro hsome
        cases hsome
      · rintro ⟨m, hmap, -⟩
        rw [hnone] at hmap
        cases hmap
  · obtain ⟨place, hplace, hcovers⟩ := SourceMap.answers_sourceAt hsound line column
    refine ⟨place, ?_, fun original => ?_⟩
    · simp only [sourceOf, hmap, hcolumn, SourceMap.sourceFor_int, hplace, bind, Except.bind]
    · rw [hcovers]
      constructor
      · exact fun h => ⟨m, hmap, h⟩
      · rintro ⟨other, hother, h⟩
        rw [hmap] at hother
        cases hother
        exact h

/-- A rejection with a place is told of one place or another, or the map is at fault. -/
theorem inSources_cases (bundled message : String) (reported : Location) :
    (∃ place, sourceOf bundled reported = .ok place ∧
      inSources bundled (.downgrade (.str message) (some reported) none) =
        told message reported place) ∨
    ∃ cause, sourceOf bundled reported = .error cause ∧
      inSources bundled (.downgrade (.str message) (some reported) none) = .fault cause := by
  unfold inSources
  simp only
  split
  next place hplace => exact Or.inl ⟨some place, hplace, rfl⟩
  next hplace => exact Or.inl ⟨none, hplace, rfl⟩
  next cause hcause => exact Or.inr ⟨cause, hcause, rfl⟩

/-- A report of the driver ends the stage with the reported rejection, told of the modules. -/
theorem downgrade_rejected {config : Config} (bundled : String) {dialect : Value} {a : Activity}
    {reply : Entries} {message : String} {file : Value} {line column : Int}
    (hasked : (Downgrader.ofConfig config.downgrader).CanBeAsked
      (if dialect.isTrue then dialect else config.downgrader.dialect))
    (hreply : a.nextReply.members? = some reply)
    (hreports : Downgrader.Reports reply message file line column) :
    ((downgrade config bundled dialect).runOn a).1 = .error (inSources bundled
      (.downgrade (.str message) (some ⟨file, .int line, .int column⟩) none)) := by
  -- the record of the start leaves the replies as they are
  have hlogged (r : LogRecord) : (a.logged r).nextReply.members? = some reply := hreply
  have hrejected (r : LogRecord) :=
    Downgrader.downgrade_of_reports bundled hasked (hlogged r) hreports
  unfold downgrade started
  simp only [runOn_bind, runOn_log, runOn_outcome, hrejected]
  rfl

/-- Rejected syntax is told with the message that the driver reports. If the map in the bundle is
usable, the place is the one in the modules that covers the reported position, with the reported one
beside it, and the reported one alone if none covers it. If it is not, the place may be another one,
or there is a fault in place of the rejection. -/
theorem rejection_told {config : Config} (bundled : String) {dialect : Value} {a : Activity}
    {reply : Entries} {message : String} {file : Value} {line column : Int}
    (hasked : (Downgrader.ofConfig config.downgrader).CanBeAsked
      (if dialect.isTrue then dialect else config.downgrader.dialect))
    (hreply : a.nextReply.members? = some reply)
    (hreports : Downgrader.Reports reply message file line column) :
    ∃ failure, ((downgrade config bundled dialect).runOn a).1 = .error failure ∧
      (SourceMap.HasUsableMap bundled → ∃ place,
        (∀ original, place = some original ↔ Covered bundled line column original) ∧
          failure = told message ⟨file, .int line, .int column⟩ place) ∧
      (¬ SourceMap.HasUsableMap bundled →
        (∃ place, failure = told message ⟨file, .int line, .int column⟩ place) ∨
          ∃ cause, failure = .fault cause) := by
  refine ⟨_, downgrade_rejected bundled hasked hreply hreports, ?_, ?_⟩
  · intro husable
    obtain ⟨place, hplace, hcovers⟩ := sourceOf_of_usable husable file line column
    rcases inSources_cases bundled message ⟨file, .int line, .int column⟩ with
      ⟨other, hother, htold⟩ | ⟨cause, hcause, -⟩
    · obtain rfl := Except.ok.inj (hplace.symm.trans hother)
      exact ⟨place, hcovers, htold⟩
    · rw [hplace] at hcause
      cases hcause
  · intro _
    rcases inSources_cases bundled message ⟨file, .int line, .int column⟩ with
      ⟨place, -, htold⟩ | ⟨cause, -, hfault⟩
    · exact Or.inl ⟨place, htold⟩
    · exact Or.inr ⟨cause, hfault⟩

def rejectingConfig : Config :=
  { (default : Config) with
    downgrader := ⟨.str "node", .str "commonjs", [], .bool true, .bool false, none, .int 120⟩ }

def rejection : Reply :=
  .finished 0 ("\x7b\"ok\":false,\"errors\":[\x7b\"text\":\"Unexpected token\"," ++
    "\"file\":\"bundle.js\",\"line\":1,\"column\":4\x7d]\x7d") ""

def rejectionMembers : Entries :=
  [(.str "ok", .bool false), (.str "errors", .list [.object
    [(.str "text", .str "Unexpected token"), (.str "file", .str "bundle.js"),
      (.str "line", .int 1), (.str "column", .int 4)]])]

theorem members_rejection : rejection.members? = some rejectionMembers := by decide +kernel

theorem reports_rejection :
    Downgrader.Reports rejectionMembers "Unexpected token" (.str "bundle.js") 1 4 := by
  refine ⟨?_, [(.str "text", .str "Unexpected token"), (.str "file", .str "bundle.js"),
    (.str "line", .int 1), (.str "column", .int 4)], [], ?_, ?_, ?_, ?_, ?_⟩
  · simp [Tool.isOk, rejectionMembers, Entries.orElse, Entries.field?_cons, Value.isTrue]
  · simp [rejectionMembers, Entries.field?_cons]
  all_goals simp [Entries.field?_cons]

theorem canBeAsked_rejecting :
    (Downgrader.ofConfig rejectingConfig.downgrader).CanBeAsked
      (if Value.null.isTrue then .null else rejectingConfig.downgrader.dialect) :=
  ⟨⟨_, rfl⟩, Downgrader.options_of_writes (by decide +kernel)⟩

/-- A bundle with a map that says that its first line is that of a module. -/
def mappedBundle : String :=
  "x = 1\n//# sourceMappingURL=data:application/json;base64," ++
    "eyJzb3VyY2VzIjpbImEuanMiXSwibWFwcGluZ3MiOiJBQUFBIn0="

def mappedMembers : Entries :=
  [(.str "sources", .list [.str "a.js"]), (.str "mappings", .str "AAAA")]

theorem inlineData_mapped :
    SourceMap.inlineData mappedBundle = .ok (some (.object mappedMembers)) :=
  ok_of_toOption (by decide +kernel)

theorem mappings_mapped :
    Mappings.decode "AAAA".toList = .ok [[⟨0, some ⟨0, 0, 0⟩⟩]] :=
  ok_of_toOption (by decide +kernel)

theorem usable_mapped : SourceMap.HasUsableMap mappedBundle := by
  refine .members inlineData_mapped ⟨⟨[.str "a.js"], ?_⟩, ?_, "AAAA", ?_, ?_⟩
  · simp [mappedMembers, Entries.field?_cons, Value.elements, Value.items?, Value.hasReference,
      Value.anyReference]
  · simp [mappedMembers, Entries.field?_cons, Entries.field?_nil, Value.isTrue]
  · simp [mappedMembers, Entries.field?_cons]
  · intro lines hlines
    rw [mappings_mapped] at hlines
    cases hlines
    simp

theorem covered_mapped : Covered mappedBundle 1 4 ⟨.str "a.js", .int 1, .int 0⟩ := by
  let m : SourceMap := ⟨[.str "a.js"], .str "", [[⟨0, some ⟨0, 0, 0⟩⟩]]⟩
  have hdata : SourceMap.ofData (.object mappedMembers) = .ok m := by
    have hmappings := mappings_mapped
    simp [SourceMap.ofData, Value.lookUp, Value.entries?, mappedMembers, Entries.field?_cons,
      Entries.field?_nil, Value.elements, Value.items?, Value.hasReference, Value.entryReference,
      Value.anyReference, Value.isTrue, bind, Except.bind, pure, Except.pure, m] at hmappings ⊢
    rw [hmappings]
  refine ⟨m, ?_, ?_⟩
  · rw [SourceMap.ofCode, inlineData_mapped]
    simp only [bind, Except.bind, hdata]
    rfl
  · have hfalls : SourceMap.FallsInto [⟨0, some ⟨0, 0, 0⟩⟩] 4 ⟨0, some ⟨0, 0, 0⟩⟩ :=
      ⟨[], [], rfl, Or.inr rfl, by simp⟩
    exact .intro (by decide) rfl hfalls rfl (by decide) rfl

theorem rejection_told_mapped :
    SourceMap.HasUsableMap mappedBundle ∧
      ((downgrade rejectingConfig mappedBundle .null).runOn { replies := [rejection] }).1 =
        .error (.downgrade (.str "Unexpected token") (some ⟨.str "a.js", .int 1, .int 0⟩)
          (some ⟨.str "bundle.js", .int 1, .int 4⟩)) := by
  have hnext : ({ replies := [rejection] } : Activity).nextReply.members? =
      some rejectionMembers := members_rejection
  have htold := rejection_told mappedBundle canBeAsked_rejecting hnext reports_rejection
  obtain ⟨failure, hends, husable, -⟩ := htold
  obtain ⟨place, hcovers, rfl⟩ := husable usable_mapped
  have hplace := (hcovers _).mpr covered_mapped
  rw [hplace] at hends
  refine ⟨usable_mapped, ?_⟩
  rw [hends]
  rfl

/-- A bundle whose last comment holds the data of a list. -/
def listedBundle : String :=
  "x = 1\n//# sourceMappingURL=data:application/json;base64,W10="

theorem inlineData_listed : SourceMap.inlineData listedBundle = .ok (some (.list [])) :=
  ok_of_toOption (by decide +kernel)

/-- Data that is a list cannot be looked into, and so the rejection is not told. -/
theorem rejection_not_told :
    rejection.members? = some rejectionMembers ∧
      Downgrader.Reports rejectionMembers "Unexpected token" (.str "bundle.js") 1 4 ∧
      ((downgrade rejectingConfig listedBundle .null).runOn { replies := [rejection] }).1 =
        .error (.fault (.noAttribute "list" "get")) := by
  have hnext : ({ replies := [rejection] } : Activity).nextReply.members? =
      some rejectionMembers := members_rejection
  have hsource : sourceOf listedBundle ⟨.str "bundle.js", .int 1, .int 4⟩ =
      .error (.noAttribute "list" "get") := by
    simp only [sourceOf, SourceMap.ofCode, inlineData_listed, bind, Except.bind]
    rfl
  refine ⟨members_rejection, reports_rejection, ?_⟩
  rw [downgrade_rejected listedBundle canBeAsked_rejecting hnext reports_rejection]
  simp only [inSources, hsource]

end Build

end FunctionPipeline

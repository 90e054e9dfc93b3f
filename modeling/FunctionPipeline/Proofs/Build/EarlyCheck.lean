import FunctionPipeline.Proofs.Build.DataFlow
import FunctionPipeline.Proofs.Build.OutputFile

/-!
The early check of a build's labels. It looks at the configured annotations and at those asked for
one after the other, while embedding looks at both merged into one mapping; the two agree, so labels
that pass are embedded whatever the source is, and labels that do not pass end the build before any
tool runs.
-/

namespace FunctionPipeline

namespace TextMap

/-- A text written under a text key of a mapping from texts to texts. -/
private theorem exists_put (m : TextMap) (key text : String) :
    ∃ written, Entries.put m.toEntries (.str key) (.str text) = toEntries written := by
  induction m with
  | nil => exact ⟨[(key, text)], rfl⟩
  | cons e m ih =>
      obtain ⟨k, s⟩ := e
      obtain ⟨written, hwritten⟩ := ih
      rw [toEntries, List.map_cons, Entries.put]
      split
      · exact ⟨(k, text) :: m, rfl⟩
      · exact ⟨(k, s) :: written, congrArg _ hwritten⟩

/-- Merging two mappings from texts to texts gives a third one. -/
theorem exists_update (usual given : TextMap) :
    ∃ merged, Entries.update usual.toEntries given.toEntries = toEntries merged := by
  induction given generalizing usual with
  | nil => exact ⟨usual, rfl⟩
  | cons e given ih =>
      obtain ⟨written, hwritten⟩ := exists_put usual e.1 e.2
      obtain ⟨merged, hmerged⟩ := ih written
      rw [← hwritten] at hmerged
      exact ⟨merged, hmerged⟩

end TextMap

/-- Nothing repeats in a manifest with a single step. -/
theorem Manifest.checked_single {m : Manifest} {step : Step} (h : m.steps = [step]) :
    m.checked = .ok m := by
  have hnames : repeated (m.steps.map Step.name) = [] := by simp [repeated, h]
  rw [checked, hnames]

open Operation

/-- An outcome that is answered: what the operation can fail with decides what the answer can. -/
theorem Operation.FailsWith.answered {α β : Type} {P Q : Failure → Prop} {o : Operation α}
    {f : Except Failure α → Operation β} (ho : FailsWith Q o)
    (hfailed : ∀ failure, Q failure → FailsWith P (f (.error failure)))
    (hdone : ∀ x, FailsWith P (f (.ok x))) : FailsWith P (outcome o >>= f) := by
  intro a failure h
  rw [runOn_bind, runOn_outcome] at h
  rcases hend : o.runOn a with ⟨cause | x, after⟩
  · rw [hend] at h
    exact hfailed cause (ho a cause (by rw [hend])) after failure h
  · rw [hend] at h
    exact hdone x after failure h

namespace Bundler

def IsRefusal : Failure → Prop
  | .bundle .. | .fault _ => True
  | _ => False

private theorem isRefusal_reported {reply : Entries} {entry : Path} (failure : Failure)
    (h : reported reply entry = .ok failure) : IsRefusal failure := by
  obtain ⟨⟨first, count⟩, -, hfirst⟩ := ok_of_bind h
  obtain ⟨text, -, htext⟩ := ok_of_bind hfirst
  obtain ⟨message, -, hmessage⟩ := ok_of_bind htext
  obtain ⟨file, -, hend⟩ := ok_of_bind hmessage
  cases hend
  trivial

private theorem isRefusal_codeOf {b : Bundler} {reply : Entries} {entry : Path}
    (failure : Failure) (h : b.codeOf reply entry = .error failure) : IsRefusal failure := by
  unfold codeOf at h
  split at h
  next =>
    split at h
    next => cases h
    next => cases h; trivial
  next => cases h; trivial

private theorem failsWith_logWarnings (warnings : List Value) :
    FailsWith IsRefusal (logWarnings warnings) := by
  induction warnings with
  | nil => exact failsWith_pure ()
  | cons warning rest ih =>
      refine (failsWith_ofFault (fun _ => trivial) _).bind fun record => ?_
      exact (failsWith_log record).bind fun _ => ih

theorem failsWith_bundle (b : Bundler) (entry : Path) : FailsWith IsRefusal (b.bundle entry) := by
  have hfault (cause : Fault) : IsRefusal (.fault cause) := trivial
  unfold bundle
  split
  · exact failsWith_throw trivial
  refine FailsWith.bind (fun _ _ h => by cases h) fun a => ?_
  refine (failsWith_ofFault hfault _).bind fun isFile => ?_
  split
  · exact failsWith_throw trivial
  refine (b.tool.failsWith_run (fun _ => trivial) hfault _ _).bind fun reply => ?_
  refine failsWith_unless hfault isRefusal_reported ?_
  refine (failsWith_ofFault hfault _).bind fun warnings => ?_
  refine (failsWith_logWarnings warnings).bind fun _ => ?_
  exact failsWith_ofExcept isRefusal_codeOf

end Bundler

namespace Build

/-- A failure that has nothing to do with embedding. -/
def IsBesideEmbedding (failure : Failure) : Prop := failure.isA .embed = false

variable {config : Config} {order : Order} {labels : Labels}

/-! The stages, each with what it can fail with. Embedding alone can fail as such. -/

theorem bundle_beside (entry : Path) : FailsWith IsBesideEmbedding (bundle config entry) := by
  refine (failsWith_log _).bind fun _ => ?_
  have hbundle : FailsWith IsBesideEmbedding
      ((Bundler.ofConfig config.bundler).bundle entry) := by
    intro a failure h
    cases failure with
    | bundle | fault => rfl
    | _ => exact (Bundler.failsWith_bundle _ entry a _ h).elim
  exact hbundle.bind fun code => (failsWith_log _).bind fun _ => failsWith_pure code

private theorem inSources_beside (bundled : String) {failure : Failure}
    (h : Downgrader.IsRefusal failure) : IsBesideEmbedding (inSources bundled failure) := by
  cases failure with
  | fault cause => rfl
  | downgrade message location generated =>
      cases location with
      | none => rfl
      | some reported =>
          unfold inSources
          simp only
          split <;> rfl
  | _ => exact h.elim

theorem downgrade_beside (bundled : String) (dialect : Value) :
    FailsWith IsBesideEmbedding (downgrade config bundled dialect) := by
  refine (failsWith_log _).bind fun _ => ?_
  refine (Downgrader.failsWith_downgrade _ bundled _).answered (fun failure h => ?_) fun code => ?_
  · exact failsWith_throw (inSources_beside bundled h)
  · exact (failsWith_log _).bind fun _ => failsWith_pure code

theorem serialize_beside (m : Manifest) : FailsWith IsBesideEmbedding (serialize m) := by
  unfold serialize
  split
  next failure hfailure =>
    apply failsWith_throw
    unfold Manifest.encode Yaml.encode at hfailure
    split at hfailure
    next cause _ =>
      cases hfailure
      cases cause <;> rfl
    next =>
      split at hfailure <;> cases hfailure
      rfl
  next => exact (failsWith_log _).bind fun _ => failsWith_pure _

theorem writeTo_beside (output : Option Path) (text : String) :
    FailsWith IsBesideEmbedding (writeTo output text) := by
  cases output with
  | none => exact failsWith_pure ()
  | some p =>
      refine FailsWith.bind (fun _ _ h => by cases h) fun a => ?_
      refine FailsWith.bind (fun _ _ h => by cases h) fun _ => ?_
      exact failsWith_ofFault (fun _ => rfl) _

/-- Labels that pass their check make a manifest of every source. -/
theorem manifestOf_of_check {c : Config.Composition} (h : labels.check c = .ok ())
    (source : String) :
    ∃ annotations m, labels.annotationsIn c = .ok annotations ∧
      manifestOf c (.str source) labels annotations = .ok m := by
  obtain ⟨usual, given, -, -, hannotations⟩ := Labels.check_ok h
  obtain ⟨merged, hmerged⟩ := TextMap.exists_update usual given
  obtain ⟨names, hnames, -⟩ := ok_of_bind h
  rw [hmerged] at hannotations
  have hartifact : Artifact.ofParts (.str source) (.bool false) (.object merged.toEntries) =
      .ok ⟨source, false, merged⟩ := Artifact.ofParts_self ⟨source, false, merged⟩
  have hstep (input : FunctionInput) :
      Step.ofParts (labels.stepIn c) (labels.functionIn c) input =
        .ok ⟨names.1, names.2, input⟩ := by
    rw [Step.ofParts, hnames]
    rfl
  refine ⟨merged.toEntries, ⟨c.name, c.compositeApiVersion, c.compositeKind,
    [⟨names.1, names.2, .ofArtifact ⟨source, false, merged⟩⟩], c.apiVersion, c.kind⟩,
    hannotations, ?_⟩
  simp only [manifestOf, hartifact, hstep, bind, Except.bind]
  exact Manifest.checked_single rfl

/-- Labels that pass their check are embedded with every source. -/
theorem embed_of_check (h : labels.check config.manifest = .ok ()) (source : String)
    (a : Activity) :
    ∃ m record, (embed config (.str source) labels).runOn a = (.ok m, a.logged record) := by
  obtain ⟨annotations, m, hannotations, hmade⟩ := manifestOf_of_check h source
  refine ⟨m, stageRecord "embed" "completed" "stage_completed"
    [(.str "step", labels.stepIn config.manifest),
      (.str "function", labels.functionIn config.manifest)], ?_⟩
  have hannotated : Operation.ofFault (labels.annotationsIn config.manifest) = pure annotations := by
    rw [hannotations]
    rfl
  simp only [embed, hannotated, pure_bind, hmade]
  rfl

theorem stages_beside (h : order.labels.check config.manifest = .ok ()) :
    FailsWith IsBesideEmbedding (stages config order) := by
  refine (failsWith_ofExcept fun failure hfailure => ?_).bind fun _ => ?_
  · rw [h] at hfailure
    cases hfailure
  refine (bundle_beside order.entry).bind fun bundled => ?_
  refine (downgrade_beside bundled .null).bind fun source => ?_
  have hembed : FailsWith IsBesideEmbedding (embed config (.str source) order.labels) := by
    intro a failure hfailure
    obtain ⟨m, record, hmade⟩ := embed_of_check h source a
    rw [hmade] at hfailure
    cases hfailure
  refine hembed.bind fun manifest => ?_
  refine (serialize_beside manifest).bind fun document => ?_
  exact (writeTo_beside order.output document).bind fun _ => failsWith_pure (manifest, document)

theorem logFailure_beside (failure : Failure) :
    FailsWith IsBesideEmbedding (logFailure order failure) := by
  unfold logFailure
  split
  · exact (failsWith_ofFault (fun _ => rfl) _).bind fun record => failsWith_log record
  · exact failsWith_pure ()

/-- A build whose labels pass their check fails with nothing to do with embedding. -/
theorem run_beside (h : order.labels.check config.manifest = .ok ()) :
    FailsWith IsBesideEmbedding (run config order) := by
  refine (failsWith_log _).bind fun _ => ?_
  refine (stages_beside h).answered (fun failure hfailure => ?_) fun made => ?_
  · exact (logFailure_beside failure).bind fun _ => failsWith_throw hfailure
  · exact (failsWith_log _).bind fun _ => failsWith_pure _

/-- A build whose labels do not pass does no more than log that it was started and that it failed.
-/
theorem run_of_refused {cause : EmbedError}
    (h : order.labels.check config.manifest = .error cause) (a : Activity) :
    ∃ started failed, (run config order).runOn a =
      (.error (.embed cause), (a.logged started).logged failed) := by
  have hstages (b : Activity) :
      (stages config order).runOn b = (.error (.embed cause), b) := by
    rw [stages, h]
    rfl
  refine ⟨record .info ("Building " ++ order.entry.text) "build_started" order.toEntries,
    record .error ("Build failed: " ++ cause.message) "build_failed"
      [(.str "entry", .str order.entry.text), (.str "error_type", .str "EmbedError")], ?_⟩
  rw [run, runOn_bind, runOn_log]
  dsimp only
  rw [runOn_bind, runOn_outcome, hstages]
  rfl

/-- The early check settles embedding. Labels that pass it are embedded with every source, and no
stage of the build fails for them as embedding does. Labels that do not pass end the build with what
the check says of them, before a tool is run, a reply taken or a file touched. So a build that fails
as embedding does has run no tool, whatever the configuration, the labels and the replies are. -/
theorem early_check_settles_embedding (config : Config) (order : Order) (a : Activity) :
    (order.labels.check config.manifest = .ok () →
      (∀ source b, ∃ m after,
        (embed config (.str source) order.labels).runOn b = (.ok m, after)) ∧
      ∀ b failure, ((stages config order).runOn b).1 = .error failure →
        failure.isA .embed = false) ∧
    (∀ cause, order.labels.check config.manifest = .error cause →
      ∃ after, (run config order).runOn a = (.error (.embed cause), after) ∧
        after.runs = a.runs ∧ after.replies = a.replies ∧ after.files = a.files) ∧
    ∀ failure after, (run config order).runOn a = (.error failure, after) →
      failure.isA .embed = true → after.runs = a.runs ∧ after.replies = a.replies := by
  refine ⟨fun h => ⟨fun source b => ?_, stages_beside h⟩, fun cause h => ?_, ?_⟩
  · obtain ⟨m, record, hmade⟩ := embed_of_check h source b
    exact ⟨m, _, hmade⟩
  · obtain ⟨started, failed, hrun⟩ := run_of_refused h a
    exact ⟨_, hrun, rfl, rfl, rfl⟩
  · intro failure after hrun hembed
    cases hcheck : order.labels.check config.manifest with
    | ok =>
        have hbeside : failure.isA .embed = false := run_beside hcheck a failure (by rw [hrun])
        rw [hembed] at hbeside
        cases hbeside
    | error cause =>
        obtain ⟨started, failed, hrefused⟩ := run_of_refused hcheck a
        cases hrun.symm.trans hrefused
        exact ⟨rfl, rfl⟩

/-- An order whose annotations hold a number, which no configured annotation makes up for. -/
def numberedOrder : Order :=
  { plainOrder with labels := ⟨.null, .str "fn", .object [(.str "tier", .int 2)]⟩ }

theorem early_check_settles_embedding_plain :
    plainOrder.labels.check plainConfig.manifest = .ok () ∧
    (∀ failure, ((stages plainConfig plainOrder).runOn {}).1 = .error failure →
      failure.isA .embed = false) ∧
    numberedOrder.labels.check plainConfig.manifest =
      .error (.itemNotText "annotations" "tier" "int") ∧
    ∃ after, (run plainConfig numberedOrder).runOn plainActivity =
        (.error (.embed (.itemNotText "annotations" "tier" "int")), after) ∧
      after.runs = [] ∧ after.replies = plainActivity.replies := by
  have hpasses : plainOrder.labels.check plainConfig.manifest = .ok () := by rfl
  have hrefused : numberedOrder.labels.check plainConfig.manifest =
      .error (.itemNotText "annotations" "tier" "int") := by rfl
  obtain ⟨after, hrun, -⟩ :=
    (early_check_settles_embedding plainConfig numberedOrder plainActivity).2.1 _ hrefused
  have hkept :=
    (early_check_settles_embedding plainConfig numberedOrder plainActivity).2.2 _ _ hrun rfl
  exact ⟨hpasses, ((early_check_settles_embedding plainConfig plainOrder {}).1 hpasses).2 {},
    hrefused, after, hrun, hkept⟩

end Build

end FunctionPipeline

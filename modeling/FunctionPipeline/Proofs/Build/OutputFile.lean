import FunctionPipeline.Proofs.Build.DataFlow
import FunctionPipeline.Proofs.Files.AtomicWrite

/-!
What a build does to files. All its stages but the last leave the files alone, and the last one is
an atomic write. So a build that fails, at whatever point and with whatever failure, leaves the
regular files as they were, and no further one unless the medium does not let the temporary file be
closed and removed. One that succeeds changes the output file only.
-/

namespace FunctionPipeline.Build

open Operation

/-! The stages before the write. What they leave alone they leave alone in failing, too. -/

section Stages

variable {γ : Type} {part : Activity → γ} (hlogged : ∀ a r, part (a.logged r) = part a)
include hlogged

theorem embed_keeps (config : Config) (source : Value) (labels : Labels) :
    Keeps part (embed config source labels) := by
  refine (keeps_ofFault _).bind fun annotations => ?_
  split
  · exact keeps_throw _
  · exact (keeps_log hlogged _).bind fun _ => keeps_pure _

theorem serialize_keeps (manifest : Manifest) : Keeps part (serialize manifest) := by
  unfold serialize
  split
  · exact keeps_throw _
  · exact (keeps_log hlogged _).bind fun _ => keeps_pure _

theorem logFailure_keeps (order : Order) (failure : Failure) :
    Keeps part (logFailure order failure) := by
  unfold logFailure
  split
  · exact (keeps_ofFault _).bind fun record => keeps_log hlogged record
  · exact keeps_pure ()

variable (hrun : ∀ a run, part (a.afterRun run) = part a)
include hrun

theorem bundle_keeps (config : Config) (entry : Path) : Keeps part (bundle config entry) := by
  refine (keeps_log hlogged _).bind fun _ => ?_
  refine (Bundler.bundle_keeps hlogged hrun _ entry).bind fun code => ?_
  exact (keeps_log hlogged _).bind fun _ => keeps_pure code

theorem downgrade_keeps (config : Config) (bundled : String) (dialect : Value) :
    Keeps part (downgrade config bundled dialect) := by
  refine (keeps_log hlogged _).bind fun _ => ?_
  refine (Downgrader.downgrade_keeps hlogged hrun _ bundled _).outcome.bind fun result => ?_
  cases result with
  | error failure => exact keeps_throw _
  | ok code => exact (keeps_log hlogged _).bind fun _ => keeps_pure code

end Stages

/-! The write, and all that comes before it. -/

def storage (a : Activity) : FileTree × FileTree.Medium := (a.files, a.medium)

/-- The files after an output was written, if there is one to write. -/
def Delivered (output : Option Path) (text : String) (before after : FileTree) : Prop :=
  match output with
  | some p => before.HasWritten after p (Utf8.encode text.toList)
  | none => before.SameFiles after

def Spared (output : Option Path) (m : FileTree.Medium) (before after : FileTree) : Prop :=
  match output with
  | some p => before.LeavesFiles after p m
  | none => before.SameFiles after

theorem spared_refl (output : Option Path) (m : FileTree.Medium) (t : FileTree) :
    Spared output m t t := by
  cases output with
  | none => exact FileTree.SameFiles.refl t
  | some p => exact Or.inl (FileTree.SameFiles.refl t)

/-- An operation that spares the files if it fails, and delivers a text if it does not. -/
def Delivers {α : Type} (output : Option Path) (textOf : α → String) (o : Operation α) : Prop :=
  ∀ a, match o.runOn a with
    | (.error _, after) => Spared output a.medium a.files after.files
    | (.ok x, after) => Delivered output (textOf x) a.files after.files

theorem Delivers.after {α β : Type} {output : Option Path} {textOf : β → String}
    {o : Operation α} {f : α → Operation β} (ho : Keeps storage o)
    (hf : ∀ x, Delivers output textOf (f x)) : Delivers output textOf (o >>= f) := by
  intro a
  have hkept := ho a
  rw [runOn_bind]
  rcases hfirst : o.runOn a with ⟨cause | x, between⟩
  · rw [hfirst] at hkept
    have hfiles : between.files = a.files := congrArg Prod.fst hkept
    dsimp only
    rw [hfiles]
    exact spared_refl output a.medium a.files
  · rw [hfirst] at hkept
    have hfiles : between.files = a.files := congrArg Prod.fst hkept
    have hmedium : between.medium = a.medium := congrArg Prod.snd hkept
    have hnext := hf x between
    dsimp only at hnext ⊢
    rwa [hfiles, hmedium] at hnext

theorem runOn_write (p : Path) (text : String) (a : Activity) :
    (write p text).runOn a =
      (((a.files.writeText p text FileTree.usualEncoding .usual a.medium).2).mapError Failure.fault,
        { a with files :=
            (a.files.writeText p text FileTree.usualEncoding .usual a.medium).1 }) := by
  unfold write
  rw [runOn_bind]
  exact runOn_ofFault _ _

theorem writeTo_delivers {α : Type} (output : Option Path) (textOf : α → String) (x : α) :
    Delivers output textOf (do writeTo output (textOf x); return x) := by
  intro a
  cases output with
  | none => exact FileTree.SameFiles.refl a.files
  | some p =>
      rw [runOn_bind, writeTo, runOn_write]
      rcases FileTree.writeText_ends a.files p (textOf x) FileTree.usualEncoding .usual a.medium
        with ⟨cause, hcause, hleaves⟩ | ⟨codec, octets, hok, hcodec, hgiven, hwritten⟩
      · rw [hcause]
        exact hleaves
      · obtain ⟨usual, husual, hutf8⟩ := FileTree.given_usual (textOf x) .usual
        cases hcodec.symm.trans husual
        cases hgiven.symm.trans hutf8
        rw [hok]
        exact hwritten

/-- The stages before the write. -/
def drafted (config : Config) (order : Order) : Operation (Manifest × String) := do
  Operation.ofExcept ((order.labels.check config.manifest).mapError Failure.embed)
  let bundled ← bundle config order.entry
  let source ← downgrade config bundled .null
  let manifest ← embed config (.str source) order.labels
  return (manifest, ← serialize manifest)

theorem stages_eq (config : Config) (order : Order) : stages config order = (do
    let made ← drafted config order
    writeTo order.output made.2
    return made) := by
  simp only [stages, drafted, bind_assoc, pure_bind]

theorem drafted_keeps (config : Config) (order : Order) : Keeps storage (drafted config order) := by
  have hlogged (a : Activity) (r : LogRecord) : storage (a.logged r) = storage a := rfl
  have hrun (a : Activity) (run : Run) : storage (a.afterRun run) = storage a := rfl
  refine (keeps_ofExcept _).bind fun _ => ?_
  refine (bundle_keeps hlogged hrun config order.entry).bind fun bundled => ?_
  refine (downgrade_keeps hlogged hrun config bundled .null).bind fun source => ?_
  refine (embed_keeps hlogged config _ order.labels).bind fun manifest => ?_
  exact (serialize_keeps hlogged manifest).bind fun document => keeps_pure _

theorem stages_deliver (config : Config) (order : Order) :
    Delivers order.output (fun made : Manifest × String => made.2) (stages config order) := by
  rw [stages_eq]
  exact Delivers.after (drafted_keeps config order) fun made =>
    writeTo_delivers order.output (fun made : Manifest × String => made.2) made

/-- A build that fails, in whatever stage and with whatever failure, leaves the regular files as
they were, and no further one but the temporary file of its output, if the medium does not let that
be closed and removed. One that succeeds leaves its document, as UTF-8, in the file that the
output's path leads to, if there is one to write, and all other regular files as they were. -/
theorem run_changes_output_only (config : Config) (order : Order) (a : Activity) :
    match (run config order).runOn a with
    | (.error _, after) =>
        match order.output with
        | some p => a.files.LeavesFiles after.files p a.medium
        | none => a.files.SameFiles after.files
    | (.ok product, after) =>
        match order.output with
        | some p => a.files.HasWritten after.files p (Utf8.encode product.document.toList)
        | none => a.files.SameFiles after.files := by
  have hstages := stages_deliver config order
    (a.logged (record .info ("Building " ++ order.entry.text) "build_started" order.toEntries))
  rw [run, runOn_bind, runOn_log]
  dsimp only
  rw [runOn_bind, runOn_outcome]
  rcases hmade : (stages config order).runOn _ with ⟨failure | made, between⟩
  · rw [hmade] at hstages
    dsimp only
    rcases hend : (do logFailure order failure; throw failure : Operation Product).runOn between
      with ⟨cause | product, after⟩
    · have hthrow : Keeps Activity.files (throw failure : Operation Product) := keeps_throw failure
      have hkept := ((logFailure_keeps (fun _ _ => rfl) order failure).bind fun _ => hthrow) between
      rw [hend] at hkept
      dsimp only at hkept ⊢
      rwa [hkept]
    · -- a failure that was logged is still thrown
      obtain ⟨_, _, -, hthrow⟩ := bind_ends hend
      cases hthrow
  · rw [hmade] at hstages
    exact hstages

/-- A build that comes to write on a full medium fails and leaves its temporary file, empty. -/
theorem run_fullMedium (config : Config) (order : Order) {p : Path} (a : Activity)
    {made started : FileTree} {place : List String} (houtput : order.output = some p)
    (hmedium : a.medium = FileTree.fullMedium)
    (hdrafted : ((drafted config order).runOn (a.logged
      (record .info ("Building " ++ order.entry.text) "build_started" order.toEntries))).1.toBool =
        true)
    (hmade : a.files.makeDirectories p.parent = (made, .ok ()))
    (hstarted : made.makeTemporary p = .ok (started, place)) :
    ∃ after, (run config order).runOn a = (.error (.fault FileTree.noSpace), after) ∧
      after.files = made.put place (.file []) := by
  have hkept := drafted_keeps config order (a.logged
    (record .info ("Building " ++ order.entry.text) "build_started" order.toEntries))
  rw [run, runOn_bind, runOn_log]
  dsimp only
  rw [runOn_bind, runOn_outcome, stages_eq, runOn_bind]
  rcases hend : (drafted config order).runOn _ with ⟨failure | document, between⟩
  · rw [hend] at hdrafted
    cases hdrafted
  · rw [hend] at hkept
    have hfiles : between.files = a.files := congrArg Prod.fst hkept
    have hstorage : between.medium = FileTree.fullMedium :=
      (congrArg Prod.snd hkept).trans hmedium
    have hwrite := FileTree.writeText_fullMedium hmade hstarted document.2 .usual
    have hfailed : (writeTo order.output document.2).runOn between =
        (.error (.fault FileTree.noSpace),
          { between with files := made.put place (.file []) }) := by
      rw [houtput, writeTo, runOn_write, hfiles, hstorage, hwrite]
      rfl
    dsimp only
    rw [runOn_bind, hfailed]
    exact ⟨_, rfl, rfl⟩

theorem run_leaves_temporary :
    ∃ after,
      (run plainConfig { plainOrder with output := some ⟨.here, ["out.yaml"]⟩ }).runOn
        { plainActivity with medium := FileTree.fullMedium } =
          (.error (.fault FileTree.noSpace), after) ∧
      plainActivity.files.content? ["work", ".out.yaml.00000000.tmp"] = none ∧
      after.files.content? ["work", ".out.yaml.00000000.tmp"] = some [] := by
  obtain ⟨after, hrun, hfiles⟩ := run_fullMedium plainConfig
    { plainOrder with output := some ⟨.here, ["out.yaml"]⟩ }
    { plainActivity with medium := FileTree.fullMedium } rfl rfl (by decide +kernel) rfl rfl
  refine ⟨after, hrun, rfl, ?_⟩
  rw [hfiles]
  rfl

end FunctionPipeline.Build

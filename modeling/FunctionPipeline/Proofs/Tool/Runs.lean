import FunctionPipeline.Proofs.Document.TextKeys
import FunctionPipeline.Proofs.Tool.Operations
import FunctionPipeline.Tool.Bundler

/-!
What operations leave alone: a part of the activity that logging does not touch is kept by all that
only logs, looks and fails; the tools take replies and start programs, and write no files. And what
a tool that gives a result has asked for and been told: it ran its driver once, on the JSON of what
it asks, and the result is the code in the object that the next reply writes.
-/

namespace FunctionPipeline

namespace Operation

variable {α β γ : Type}

def Keeps (part : Activity → γ) (o : Operation α) : Prop := ∀ a, part (o.runOn a).2 = part a

variable {part : Activity → γ}

theorem keeps_pure (x : α) : Keeps part (pure x : Operation α) := fun _ => rfl

theorem keeps_throw (failure : Failure) : Keeps part (throw failure : Operation α) := fun _ => rfl

theorem keeps_get : Keeps part (get : Operation Activity) := fun _ => rfl

theorem keeps_ofFault (r : Except Fault α) : Keeps part (ofFault r) := by
  intro a
  rw [runOn_ofFault]

theorem keeps_ofExcept (r : Except Failure α) : Keeps part (ofExcept r) := by
  intro a
  rw [runOn_ofExcept]

theorem keeps_log (hlogged : ∀ a r, part (a.logged r) = part a) (r : LogRecord) :
    Keeps part (log r) := fun a => hlogged a r

theorem Keeps.bind {o : Operation α} {f : α → Operation β} (ho : Keeps part o)
    (hf : ∀ x, Keeps part (f x)) : Keeps part (o >>= f) := by
  intro a
  rw [runOn_bind]
  rcases hfirst : o.runOn a with ⟨cause | x, between⟩
  · have hkept := ho a
    rwa [hfirst] at hkept
  · have hkept := ho a
    rw [hfirst] at hkept
    exact (hf x between).trans hkept

theorem Keeps.outcome {o : Operation α} (ho : Keeps part o) : Keeps part (Operation.outcome o) := by
  intro a
  rw [runOn_outcome]
  exact ho a

theorem Keeps.ite {c : Bool} {o p : Operation α} (ho : Keeps part o) (hp : Keeps part p) :
    Keeps part (if c = true then o else p) := by
  split
  · exact ho
  · exact hp

end Operation

open Operation

section Keeping

variable {γ : Type} {part : Activity → γ} (hlogged : ∀ a r, part (a.logged r) = part a)
include hlogged

theorem Bundler.logWarnings_keeps (warnings : List Value) : Keeps part (logWarnings warnings) := by
  induction warnings with
  | nil => exact keeps_pure ()
  | cons warning rest ih =>
      exact (keeps_ofFault _).bind fun record => (keeps_log hlogged record).bind fun _ => ih

variable (hrun : ∀ a run, part (a.afterRun run) = part a)
include hrun

theorem Tool.run_keeps (t : Tool) (failing : ToolError → Failure) (payload : Value)
    (directory : Option Path) : Keeps part (t.run failing payload directory) := by
  refine (keeps_ofFault _).bind fun command => ?_
  refine (keeps_log hlogged _).bind fun _ => ?_
  refine (keeps_ofFault _).bind fun input => ?_
  have hstart (run : Run) : Keeps part (start run) := fun a => hrun a run
  exact (hstart _).bind fun reply => keeps_ofExcept _

theorem Downgrader.downgrade_keeps (d : Downgrader) (source : String) (dialect : Value) :
    Keeps part (d.downgrade source dialect) := by
  refine (keeps_ofExcept _).bind fun options => ?_
  refine (d.tool.run_keeps hlogged hrun _ _ _).bind fun reply => ?_
  exact Keeps.ite ((keeps_ofFault _).bind fun failure => keeps_throw failure) (keeps_ofExcept _)

theorem Bundler.bundle_keeps (b : Bundler) (entry : Path) : Keeps part (b.bundle entry) := by
  refine Keeps.ite (keeps_throw _) ?_
  refine keeps_get.bind fun a => ?_
  refine (keeps_ofFault _).bind fun isFile => ?_
  refine Keeps.ite (keeps_throw _) ?_
  refine (b.tool.run_keeps hlogged hrun _ _ _).bind fun reply => ?_
  refine Keeps.ite ((keeps_ofFault _).bind fun failure => keeps_throw failure) ?_
  refine (keeps_ofFault _).bind fun warnings => ?_
  exact (logWarnings_keeps hlogged warnings).bind fun _ => keeps_ofExcept _

end Keeping

namespace Reply

/-- The members of the object that a run which ended well has written. -/
def members? : Reply → Option Entries
  | .finished code output _ =>
      if code = 0 then
        match Json.read output.toList with
        | .ok (.mapping _ entries) => some entries
        | _ => none
      else none
  | _ => none

def code? (reply : Reply) : Option String :=
  match reply.members?.bind (Entries.field? · "code") with
  | some (.str code) => some code
  | _ => none

theorem code?_eq_some {reply : Reply} {entries : Entries} {code : String}
    (hmembers : reply.members? = some entries)
    (hcode : Entries.field? entries "code" = some (.str code)) : reply.code? = some code := by
  rw [code?, hmembers, Option.bind_some, hcode]

/-- A reply with members is that of a run which ended well and wrote an object. -/
theorem eq_finished {reply : Reply} {members : Entries} (h : reply.members? = some members) :
    ∃ output report access, reply = .finished 0 output report ∧
      Json.read output.toList = .ok (.mapping access members) := by
  cases reply with
  | notFound => cases h
  | timedOut => cases h
  | finished code output report =>
      unfold members? at h
      simp only at h
      split at h
      next hcode =>
        split at h
        next access found hread =>
          cases h
          exact ⟨output, report, access, by rw [hcode], hread⟩
        next => cases h
      next => cases h

end Reply

open Operation

/-- A run of a tool's driver on a payload, and the code that the driver answered with. -/
structure Tool.Gave (t : Tool) (payload : Value) (run : Run) (reply : Reply) (code : String) :
    Prop where
  command : t.command = .ok run.command
  input : Json.write .refuse payload = .ok run.input
  code : reply.code? = some code

namespace Tool

/-- A reply with members is that of a run which ended well. -/
theorem replyOf_ok {t : Tool} {failing : ToolError → Failure} {reply : Reply} {entries : Entries}
    (h : t.replyOf failing reply = .ok entries) : reply.members? = some entries := by
  unfold replyOf at h
  split at h
  next => cases h
  next => cases h
  next found hread =>
    cases h
    obtain ⟨output, houtput, hparsed⟩ := ok_of_bind hread
    cases reply with
    | notFound => cases houtput
    | timedOut => cases houtput
    | finished code text report =>
        by_cases hcode : code = 0
        · obtain rfl : text = output := by simpa [outputOf, hcode] using houtput
          unfold parsed at hparsed
          split at hparsed
          all_goals cases hparsed
          next access hjson => simp [Reply.members?, hcode, hjson]
        · simp [outputOf, hcode] at houtput

/-- A run that gives an object has asked its driver for it, and the next reply holds it. -/
theorem run_exchanges {t : Tool} {failing : ToolError → Failure} {payload : Value}
    {directory : Option Path} {a after : Activity} {entries : Entries}
    (h : (t.run failing payload directory).runOn a = (.ok entries, after)) :
    ∃ run reply, t.command = .ok run.command ∧ Json.write .refuse payload = .ok run.input ∧
      reply.members? = some entries ∧
      after.runs = a.runs ++ [run] ∧ a.replies = reply :: after.replies := by
  obtain ⟨command, first, hcommand, hlogged⟩ := bind_ends h
  obtain ⟨_, logged, hlog, hwritten⟩ := bind_ends hlogged
  obtain ⟨input, _, hinput, hstarted⟩ := bind_ends hwritten
  obtain ⟨reply, _, hstart, hread⟩ := bind_ends hstarted
  obtain ⟨hcommandOk, hfirst⟩ := ofFault_ends hcommand
  obtain rfl := log_ends hlog
  obtain ⟨hinputOk, rfl⟩ := ofFault_ends hinput
  obtain ⟨hreply, rfl⟩ := ofExcept_ends hread
  cases hstart
  have hmembers := replyOf_ok hreply
  rw [hfirst] at hmembers ⊢
  refine ⟨⟨command, input, directory, t.timeout⟩, _, hcommandOk, hinputOk, hmembers, rfl, ?_⟩
  cases hreplies : a.replies with
  | nil =>
      -- without a reply there is no program, and so no object
      rw [Activity.nextReply, Activity.logged, hreplies] at hmembers
      cases hmembers
  | cons next rest => simp [Activity.nextReply, Activity.logged, Activity.afterRun, hreplies]

end Tool

namespace Bundler

theorem codeOf_ok {b : Bundler} {reply : Entries} {entry : Path} {code : String}
    (h : b.codeOf reply entry = .ok code) :
    Entries.field? reply "code" = some (.str code) ∧ b.unresolved code = [] := by
  unfold codeOf at h
  split at h
  next found hfound =>
    split at h
    next hresolved =>
      cases h
      exact ⟨hfound, hresolved⟩
    next => cases h
  next => cases h

end Bundler

namespace Downgrader

theorem codeOf_ok {reply : Entries} {code : String} (h : codeOf reply = .ok code) :
    Entries.field? reply "code" = some (.str code) := by
  unfold codeOf at h
  split at h
  next found hfound =>
    cases h
    exact hfound
  next => cases h

/-- A downgraded source is the code of one run of the driver on the source given. -/
theorem downgrade_gives {d : Downgrader} {source code : String} {dialect : Value}
    {a after : Activity} (h : (d.downgrade source dialect).runOn a = (.ok code, after)) :
    ∃ options run reply, d.options dialect = .ok options ∧
      d.tool.Gave (payload source options) run reply code ∧
      after.runs = a.runs ++ [run] ∧ a.replies = reply :: after.replies := by
  obtain ⟨options, _, hchosen, hasked⟩ := bind_ends h
  obtain ⟨entries, _, hreply, hjudged⟩ := bind_ends hasked
  obtain ⟨hoptions, rfl⟩ := ofExcept_ends hchosen
  obtain ⟨-, hgiven⟩ := unless_ends hjudged
  obtain ⟨hcode, rfl⟩ := ofExcept_ends hgiven
  obtain ⟨run, reply, hcommand, hinput, hmembers, hruns, hreplies⟩ := Tool.run_exchanges hreply
  exact ⟨options, run, reply, hoptions,
    ⟨hcommand, hinput, Reply.code?_eq_some hmembers (codeOf_ok hcode)⟩, hruns, hreplies⟩

end Downgrader

end FunctionPipeline

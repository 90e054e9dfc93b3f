import FunctionPipeline.Tool.Downgrader

/-!
How operations end. An operation that gives a value is followed step by step through its activity;
one that fails is only asked what it can fail with, since a failure is answered without regard to
what happened before it. The tools take one reply for each run.
-/

namespace FunctionPipeline

/-- A sequence that gives a value did so at each step. -/
theorem ok_of_bind {ε α β : Type} {r : Except ε α} {f : α → Except ε β} {y : β}
    (h : (r >>= f) = .ok y) : ∃ x, r = .ok x ∧ f x = .ok y := by
  cases r with
  | error e => cases h
  | ok x => exact ⟨x, rfl, h⟩

/-- A sequence that fails did so at its first step or after it. -/
theorem error_of_bind {ε α β : Type} {r : Except ε α} {f : α → Except ε β} {e : ε}
    (h : (r >>= f) = .error e) : r = .error e ∨ ∃ x, r = .ok x ∧ f x = .error e := by
  cases r with
  | error cause => cases h; exact Or.inl rfl
  | ok x => exact Or.inr ⟨x, rfl, h⟩

/-- Each of several results stems from one of the values. -/
theorem exists_of_mapM_ok {ε α β : Type} {f : α → Except ε β} {xs : List α} {ys : List β}
    (h : xs.mapM f = .ok ys) : ∀ y ∈ ys, ∃ x ∈ xs, f x = .ok y := by
  induction xs generalizing ys with
  | nil =>
      cases h
      simp
  | cons x xs ih =>
      rw [List.mapM_cons] at h
      obtain ⟨first, hfirst, hrest⟩ := ok_of_bind h
      obtain ⟨others, hothers, hend⟩ := ok_of_bind hrest
      cases hend
      intro y hy
      rcases List.mem_cons.mp hy with rfl | hmem
      · exact ⟨x, by simp, hfirst⟩
      · obtain ⟨z, hz, hread⟩ := ih hothers y hmem
        exact ⟨z, by simp [hz], hread⟩

namespace Operation

variable {α β : Type}

/-- How an operation ends on an activity, and the activity then. -/
def runOn (o : Operation α) (a : Activity) : Except Failure α × Activity := o.run.run a

theorem runOn_log (r : LogRecord) (a : Activity) : (log r).runOn a = (.ok (), a.logged r) := rfl

theorem runOn_outcome (o : Operation α) (a : Activity) :
    (outcome o).runOn a = (.ok (o.runOn a).1, (o.runOn a).2) := rfl

theorem runOn_ofExcept (r : Except Failure α) (a : Activity) :
    (ofExcept r).runOn a = (r, a) := by
  cases r <;> rfl

theorem runOn_ofFault (r : Except Fault α) (a : Activity) :
    (ofFault r).runOn a = (r.mapError Failure.fault, a) := by
  cases r <;> rfl

/-- A failure ends a sequence; a value is handed on. -/
theorem runOn_bind (o : Operation α) (f : α → Operation β) (a : Activity) :
    (o >>= f).runOn a =
      match o.runOn a with
      | (.ok x, after) => (f x).runOn after
      | (.error failure, after) => (.error failure, after) := by
  change (ExceptT.bindCont f (o.runOn a).1).run (o.runOn a).2 = _
  rcases o.runOn a with ⟨x | x, after⟩ <;> rfl

theorem runOn_bind_of_ok {o : Operation α} {f : α → Operation β} {a : Activity} {x : α}
    (h : (o.runOn a).1 = .ok x) : (o >>= f).runOn a = (f x).runOn (o.runOn a).2 := by
  rw [runOn_bind]
  rcases hend : o.runOn a with ⟨r, after⟩
  rw [hend] at h
  obtain rfl : r = .ok x := h
  rfl

theorem runOn_bind_of_error {o : Operation α} {f : α → Operation β} {a : Activity}
    {failure : Failure} (h : (o.runOn a).1 = .error failure) :
    ((o >>= f).runOn a).1 = .error failure := by
  rw [runOn_bind]
  rcases hend : o.runOn a with ⟨r, after⟩
  rw [hend] at h
  obtain rfl : r = .error failure := h
  rfl

/-- A sequence that gives a value did so at each step. -/
theorem bind_ends {o : Operation α} {f : α → Operation β} {a after : Activity} {y : β}
    (h : (o >>= f).runOn a = (.ok y, after)) :
    ∃ x between, o.runOn a = (.ok x, between) ∧ (f x).runOn between = (.ok y, after) := by
  rw [runOn_bind] at h
  rcases hfirst : o.runOn a with ⟨x | x, between⟩
  · rw [hfirst] at h
    cases h
  · rw [hfirst] at h
    exact ⟨x, between, rfl, h⟩

theorem log_ends {r : LogRecord} {a after : Activity} {u : Unit}
    (h : (log r).runOn a = (.ok u, after)) : after = a.logged r := by
  cases h
  rfl

theorem ofFault_ends {r : Except Fault α} {a after : Activity} {x : α}
    (h : (ofFault r).runOn a = (.ok x, after)) : r = .ok x ∧ after = a := by
  rw [runOn_ofFault] at h
  cases r with
  | error cause => cases h
  | ok y => cases h; exact ⟨rfl, rfl⟩

theorem ofExcept_ends {r : Except Failure α} {a after : Activity} {x : α}
    (h : (ofExcept r).runOn a = (.ok x, after)) : r = .ok x ∧ after = a := by
  rw [runOn_ofExcept] at h
  cases h
  exact ⟨rfl, rfl⟩

/-- An outcome is how the operation ended, and it ended there. -/
theorem outcome_ends {o : Operation α} {a after : Activity} {r : Except Failure α}
    (h : (outcome o).runOn a = (.ok r, after)) : o.runOn a = (r, after) := by
  rw [runOn_outcome] at h
  cases h
  rfl

/-- A step that fails unless all is well gives a value only if it is. -/
theorem unless_ends {c : Bool} {failing : Except Fault Failure} {o : Operation α}
    {a after : Activity} {x : α}
    (h : (if (!c) = true then do let failure ← ofFault failing; throw failure else o).runOn a =
      (.ok x, after)) : c = true ∧ o.runOn a = (.ok x, after) := by
  cases c with
  | true => exact ⟨rfl, h⟩
  | false =>
      obtain ⟨failure, between, -, hthrow⟩ := bind_ends h
      cases hthrow

def FailsWith (P : Failure → Prop) (o : Operation α) : Prop :=
  ∀ a failure, (o.runOn a).1 = .error failure → P failure

variable {P : Failure → Prop}

theorem failsWith_pure (x : α) : FailsWith P (pure x : Operation α) := by
  intro a failure h
  cases h

theorem failsWith_throw {failure : Failure} (h : P failure) :
    FailsWith P (throw failure : Operation α) := by
  intro a cause hcause
  cases hcause
  exact h

theorem failsWith_log (r : LogRecord) : FailsWith P (log r) := by
  intro a failure h
  cases h

theorem failsWith_start (run : Run) : FailsWith P (start run) := by
  intro a failure h
  cases h

theorem failsWith_ofExcept {r : Except Failure α} (h : ∀ failure, r = .error failure → P failure) :
    FailsWith P (ofExcept r) := by
  intro a failure hfailure
  rw [runOn_ofExcept] at hfailure
  exact h failure hfailure

theorem failsWith_ofFault (h : ∀ cause, P (.fault cause)) (r : Except Fault α) :
    FailsWith P (ofFault r) := by
  intro a failure hfailure
  rw [runOn_ofFault] at hfailure
  cases r with
  | ok x => cases hfailure
  | error cause => cases hfailure; exact h cause

theorem FailsWith.bind {o : Operation α} {f : α → Operation β} (ho : FailsWith P o)
    (hf : ∀ x, FailsWith P (f x)) : FailsWith P (o >>= f) := by
  intro a failure h
  rw [runOn_bind] at h
  rcases hfirst : o.runOn a with ⟨cause | x, between⟩
  · rw [hfirst] at h
    cases h
    exact ho a failure (by rw [hfirst])
  · rw [hfirst] at h
    exact hf x between failure h

/-- A step that fails unless all is well fails as it says, or with what comes after it. -/
theorem failsWith_unless (hfault : ∀ cause, P (.fault cause)) {c : Bool}
    {failing : Except Fault Failure} (hfailing : ∀ failure, failing = .ok failure → P failure)
    {o : Operation α} (ho : FailsWith P o) :
    FailsWith P (if (!c) = true then do let failure ← ofFault failing; throw failure else o) := by
  cases c with
  | true => exact ho
  | false =>
      cases failing with
      | error cause => exact failsWith_throw (hfault cause)
      | ok failure => exact failsWith_throw (hfailing failure rfl)

end Operation

open Operation

namespace Failure

def HasText (failure : Failure) : Prop := ∃ text, failure.message = .ok text

theorem hasText_fault (cause : Fault) : (Failure.fault cause).HasText := ⟨_, rfl⟩

theorem hasText_execution (cause : ExecutionError) : (Failure.execution cause).HasText := ⟨_, rfl⟩

theorem hasText_invalidResource (cause : ResourceError) :
    (Failure.invalidResource cause).HasText := ⟨_, rfl⟩

end Failure

namespace Tool

/-- A run without a usable reply fails as its caller says, or with a fault. -/
theorem replyOf_failure {P : Failure → Prop} {t : Tool} {failing : ToolError → Failure}
    (hfailing : ∀ cause, P (failing cause)) (hfault : ∀ cause, P (.fault cause)) (reply : Reply)
    (failure : Failure) (h : t.replyOf failing reply = .error failure) : P failure := by
  unfold replyOf at h
  split at h
  next cause _ => cases h; exact hfailing cause
  next cause _ => cases h; exact hfault cause
  next => cases h

theorem failsWith_run {P : Failure → Prop} (t : Tool) {failing : ToolError → Failure}
    (hfailing : ∀ cause, P (failing cause)) (hfault : ∀ cause, P (.fault cause)) (payload : Value)
    (directory : Option Path) : FailsWith P (t.run failing payload directory) := by
  refine (failsWith_ofFault hfault _).bind fun command => ?_
  refine (failsWith_log _).bind fun _ => ?_
  refine (failsWith_ofFault hfault _).bind fun input => ?_
  refine (failsWith_start _).bind fun reply => ?_
  exact failsWith_ofExcept (replyOf_failure hfailing hfault reply)

/-- A run that gives an object has read it from the next reply, which is then used up. -/
theorem run_ends {t : Tool} {failing : ToolError → Failure} {payload : Value}
    {directory : Option Path} {a after : Activity} {entries : Entries}
    (h : (t.run failing payload directory).runOn a = (.ok entries, after)) :
    t.replyOf failing a.nextReply = .ok entries ∧ after.replies = a.replies.tail := by
  obtain ⟨command, _, hcommand, hlogged⟩ := bind_ends h
  obtain ⟨_, _, hlog, hwritten⟩ := bind_ends hlogged
  obtain ⟨input, _, hinput, hstarted⟩ := bind_ends hwritten
  obtain ⟨reply, _, hstart, hread⟩ := bind_ends hstarted
  obtain ⟨-, rfl⟩ := ofFault_ends hcommand
  obtain rfl := log_ends hlog
  obtain ⟨-, rfl⟩ := ofFault_ends hinput
  obtain ⟨hreply, rfl⟩ := ofExcept_ends hread
  cases hstart
  exact ⟨hreply, rfl⟩

end Tool

namespace Downgrader

def IsRefusal : Failure → Prop
  | .downgrade .. | .fault _ => True
  | _ => False

private theorem isRefusal_unknown (name : Value) : IsRefusal (Dialect.unknown name) := by
  unfold Dialect.unknown
  split <;> trivial

private theorem isRefusal_options {d : Downgrader} {dialect : Value} (failure : Failure)
    (h : d.options dialect = .error failure) : IsRefusal failure := by
  unfold options Dialect.ofName at h
  split at h
  · cases h
    trivial
  · split at h
    · cases h
    · cases h
      exact isRefusal_unknown dialect

private theorem isRefusal_codeOf {reply : Entries} (failure : Failure)
    (h : codeOf reply = .error failure) : IsRefusal failure := by
  unfold codeOf at h
  split at h
  · cases h
  · cases h
    trivial

private theorem isRefusal_reported {reply : Entries} (failure : Failure)
    (h : reported reply = .ok failure) : IsRefusal failure := by
  obtain ⟨⟨first, _⟩, -, hplaced⟩ := ok_of_bind h
  obtain ⟨place, -, htold⟩ := ok_of_bind hplaced
  obtain ⟨text, -, hend⟩ := ok_of_bind htold
  cases hend
  trivial

theorem failsWith_downgrade (d : Downgrader) (source : String) (dialect : Value) :
    FailsWith IsRefusal (d.downgrade source dialect) := by
  refine (failsWith_ofExcept isRefusal_options).bind fun options => ?_
  refine (d.tool.failsWith_run (fun _ => trivial) (fun _ => trivial) _ _).bind fun reply => ?_
  have hend : FailsWith IsRefusal (Operation.ofExcept (codeOf reply)) :=
    failsWith_ofExcept isRefusal_codeOf
  exact failsWith_unless (fun _ => trivial) isRefusal_reported hend

/-- A source that could be downgraded took one reply. -/
theorem downgrade_ends {d : Downgrader} {source code : String} {dialect : Value}
    {a after : Activity} (h : (d.downgrade source dialect).runOn a = (.ok code, after)) :
    after.replies = a.replies.tail := by
  obtain ⟨options, _, hoptions, hasked⟩ := bind_ends h
  obtain ⟨reply, _, hreply, hjudged⟩ := bind_ends hasked
  obtain ⟨-, rfl⟩ := ofExcept_ends hoptions
  obtain ⟨-, hreplies⟩ := Tool.run_ends hreply
  obtain ⟨-, hcode⟩ := unless_ends hjudged
  obtain ⟨-, rfl⟩ := ofExcept_ends hcode
  exact hreplies

end Downgrader

end FunctionPipeline

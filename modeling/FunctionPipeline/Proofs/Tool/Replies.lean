import FunctionPipeline.Proofs.Json.RoundTrip
import FunctionPipeline.Proofs.Tool.Runs

/-!
What a driver is asked for, and what a tool makes of its reply. A run without a reply fails as its
caller says; the members of a reply are JSON values whose integers can be shown; and an operation
that takes them apart surfaces its failures as the tool's own, or ends in a fault where they have
another shape.
-/

namespace FunctionPipeline

open Operation

theorem Value.lookUp_of_not_mapping {v : Value} (h : v.isMapping = false) (name : String) :
    v.lookUp name = .error (.noAttribute v.typeName "get") := by
  cases v with
  | mapping => cases h
  | _ => rfl

namespace Reply

/-- The members of an object that a driver wrote are trees whose integers can be shown. -/
theorem isShown_members {reply : Reply} {members : Entries}
    (h : reply.members? = some members) : Entries.IsShown members := by
  obtain ⟨output, report, access, -, hread⟩ := eq_finished h
  exact Entries.isShown_mapping.mp (Json.isShown_of_read hread)

theorem isValue_members {reply : Reply} {members : Entries}
    (h : reply.members? = some members) : Json.IsValue (.object members) := by
  obtain ⟨output, report, access, -, hread⟩ := eq_finished h
  cases Json.isValue_of_read hread with
  | object hkeys hvalues => exact .object hkeys hvalues

/-- Whether the output of a run that ended well can be read, be it as no JSON at all: no integer in
it has too many digits. -/
def IsReadable : Reply → Prop
  | .finished code output _ =>
      code = 0 → ∀ count, Json.read output.toList ≠ .error (.tooManyDigits count)
  | _ => True

theorem isReadable_of_members {reply : Reply} {members : Entries}
    (h : reply.members? = some members) : reply.IsReadable := by
  obtain ⟨output, report, access, rfl, hread⟩ := eq_finished h
  intro _ count htoo
  rw [hread] at htoo
  cases htoo

/-- A reply that can be read, and has the shape that its members are taken apart as. -/
def Fits (shape : Entries → Prop) (reply : Reply) : Prop :=
  reply.IsReadable ∧ ∀ members, reply.members? = some members → shape members

theorem fits_of_members {shape : Entries → Prop} {reply : Reply} {members : Entries}
    (h : reply.members? = some members) : reply.Fits shape ↔ shape members := by
  refine ⟨fun hfits => hfits.2 members h, fun hshape => ⟨isReadable_of_members h, ?_⟩⟩
  intro others hothers
  obtain rfl := Option.some.inj (h.symm.trans hothers)
  exact hshape

end Reply

/-- What a tool tells of a reported failure: a failure of its own kind if the report fits, and a
fault if it does not. -/
def Tells (kind : FailureKind) (fits : Prop) (r : Except Fault Failure) : Prop :=
  (fits → ∃ failure, failure.kind? = some kind ∧ r = .ok failure) ∧
    (¬ fits → ∃ cause, r = .error cause)

/-- How an operation of a tool ends: with a text or a failure of the tool's own kind if what it is
answered with fits, and with a fault if it does not. -/
def Surfaces (kind : FailureKind) (fits : Prop) (r : Except Failure String) : Prop :=
  (fits → (∃ text, r = .ok text) ∨ ∃ failure, failure.kind? = some kind ∧ r = .error failure) ∧
    (¬ fits → ∃ cause, r = .error (.fault cause))

section Surfaces

variable {kind : FailureKind} {fits other : Prop}

theorem Tells.own (hfits : fits) {failure : Failure} (hkind : failure.kind? = some kind) :
    Tells kind fits (.ok failure) :=
  ⟨fun _ => ⟨failure, hkind, rfl⟩, fun hnone => absurd hfits hnone⟩

theorem Tells.fault (hnone : ¬ fits) (cause : Fault) : Tells kind fits (.error cause) :=
  ⟨fun hfits => absurd hfits hnone, fun _ => ⟨cause, rfl⟩⟩

theorem Tells.congr {r : Except Fault Failure} (h : Tells kind fits r) (hiff : other ↔ fits) :
    Tells kind other r :=
  ⟨fun hother => h.1 (hiff.mp hother), fun hnone => h.2 fun hfits => hnone (hiff.mpr hfits)⟩

namespace Surfaces

variable {r : Except Failure String}

theorem ok (hfits : fits) (text : String) : Surfaces kind fits (.ok text) :=
  ⟨fun _ => .inl ⟨text, rfl⟩, fun hnone => absurd hfits hnone⟩

theorem own (hfits : fits) {failure : Failure} (hkind : failure.kind? = some kind) :
    Surfaces kind fits (.error failure) :=
  ⟨fun _ => .inr ⟨failure, hkind, rfl⟩, fun hnone => absurd hfits hnone⟩

theorem fault (hnone : ¬ fits) (cause : Fault) : Surfaces kind fits (.error (.fault cause)) :=
  ⟨fun hfits => absurd hfits hnone, fun _ => ⟨cause, rfl⟩⟩

theorem congr (h : Surfaces kind fits r) (hiff : other ↔ fits) : Surfaces kind other r :=
  ⟨fun hother => h.1 (hiff.mp hother), fun hnone => h.2 fun hfits => hnone (hiff.mpr hfits)⟩

/-- A report of a failure surfaces as it is told; without one it is what comes after that does. -/
theorem of_reported {c : Bool} {failing : Except Fault Failure} {o : Operation String}
    {a : Activity}
    (hfailing : c = false → Tells kind fits failing)
    (ho : c = true → Surfaces kind fits (o.runOn a).1) :
    Surfaces kind fits ((if (!c) = true then do let failure ← ofFault failing; throw failure
      else o).runOn a).1 := by
  cases c with
  | true => exact ho rfl
  | false =>
      obtain ⟨hown, hfault⟩ := hfailing rfl
      by_cases hfits : fits
      · obtain ⟨failure, hkind, rfl⟩ := hown hfits
        exact .own hfits hkind
      · obtain ⟨cause, rfl⟩ := hfault hfits
        exact .fault hfits cause

end Surfaces

end Surfaces

namespace Tool

theorem replyOf_of_members {t : Tool} {failing : ToolError → Failure} {reply : Reply}
    {members : Entries} (h : reply.members? = some members) :
    t.replyOf failing reply = .ok members := by
  obtain ⟨output, report, access, rfl, hread⟩ := Reply.eq_finished h
  simp only [replyOf, outputOf, if_true, parsed, hread, bind, Except.bind]

/-- A driver that can be started is answered with what becomes of the next reply. -/
theorem run_answers {t : Tool} (failing : ToolError → Failure) {payload : Value}
    (directory : Option Path) {a : Activity} {command : List String} {input : String}
    (hcommand : t.command = .ok command) (hinput : Json.write .refuse payload = .ok input) :
    ((t.run failing payload directory).runOn a).1 = t.replyOf failing a.nextReply := by
  unfold run
  simp only [runOn_bind, runOn_ofFault, hcommand, hinput, Except.mapError, runOn_log]
  change (runOn (Operation.ofExcept (t.replyOf failing a.nextReply)) _).1 = _
  rw [runOn_ofExcept]

/-- If it replies with an object, with its members. -/
theorem run_of_members {t : Tool} (failing : ToolError → Failure) {payload : Value}
    (directory : Option Path) {a : Activity} {command : List String} {input : String}
    {members : Entries} (hcommand : t.command = .ok command)
    (hinput : Json.write .refuse payload = .ok input)
    (hreply : a.nextReply.members? = some members) :
    ((t.run failing payload directory).runOn a).1 = .ok members := by
  rw [run_answers failing directory hcommand hinput, replyOf_of_members hreply]

structure IsTellable (t : Tool) : Prop where
  program : t.program.IsShort
  timeout : t.timeout.IsShort

theorem replyOf_of_output (t : Tool) (failing : ToolError → Failure) (output report : String) :
    t.replyOf failing (.finished 0 output report) =
      match t.parsed output with
      | .error (.tool cause) => .error (failing cause)
      | .error (.fault cause) => .error (.fault cause)
      | .ok entries => .ok entries := rfl

/-- What becomes of a reply without members: a failure of the caller's, or a fault if an integer in
the output has too many digits. -/
theorem replyOf_of_none {t : Tool} (htold : t.IsTellable) (failing : ToolError → Failure)
    {reply : Reply} (hnone : reply.members? = none) :
    (reply.IsReadable ∧ ∃ cause, t.replyOf failing reply = .error (failing cause)) ∨
      (¬ reply.IsReadable ∧ ∃ cause, t.replyOf failing reply = .error (.fault cause)) := by
  have hof {v : Value} (hv : v.IsShort) (telling : String → ToolError) :
      ReplyError.of v telling = .tool (telling v.text) := by
    rw [ReplyError.of, hv.shown]
  cases reply with
  | notFound =>
      refine .inl ⟨trivial, .notFound t.program.text, ?_⟩
      simp only [replyOf, outputOf, hof htold.program, bind, Except.bind]
  | timedOut =>
      refine .inl ⟨trivial, .timedOut t.driver t.timeout.text, ?_⟩
      simp only [replyOf, outputOf, hof htold.timeout, bind, Except.bind]
  | finished code output report =>
      by_cases hcode : code = 0
      · subst hcode
        rw [replyOf_of_output, parsed, Reply.IsReadable]
        simp only [Reply.members?, if_true] at hnone
        cases hread : Json.read output.toList with
        | ok v =>
            cases v with
            | mapping access members =>
                rw [hread] at hnone
                cases hnone
            | _ =>
                refine .inl ⟨fun _ count htoo => ?_, _, rfl⟩
                cases htoo
        | error cause =>
            cases cause with
            | malformed =>
                refine .inl ⟨fun _ count htoo => ?_, _, rfl⟩
                cases htoo
            | tooManyDigits count =>
                exact .inr ⟨fun hreadable => hreadable rfl count rfl, _, rfl⟩
      · refine .inl ⟨fun hzero => absurd hzero hcode, ?_⟩
        simp only [replyOf, outputOf, hcode, if_false, bind, Except.bind]
        exact ⟨_, rfl⟩

/-- A run surfaces its caller's failures, if what follows does for the members of the reply. -/
theorem run_surfaces {t : Tool} {kind : FailureKind} {failing : ToolError → Failure}
    (htold : t.IsTellable) (hfailing : ∀ cause, (failing cause).kind? = some kind)
    {payload : Value} (directory : Option Path) {a : Activity} {command : List String}
    {input : String} (hcommand : t.command = .ok command)
    (hinput : Json.write .refuse payload = .ok input) {shape : Entries → Prop}
    {next : Entries → Operation String}
    (hnext : ∀ members after, a.nextReply.members? = some members →
      Surfaces kind (shape members) ((next members).runOn after).1) :
    Surfaces kind (a.nextReply.Fits shape)
      ((t.run failing payload directory >>= next).runOn a).1 := by
  have hran := run_answers failing directory (a := a) hcommand hinput
  cases hmembers : a.nextReply.members? with
  | some members =>
      rw [runOn_bind_of_ok (hran.trans (replyOf_of_members hmembers))]
      exact (hnext members _ hmembers).congr (Reply.fits_of_members hmembers)
  | none =>
      rcases replyOf_of_none htold failing hmembers with
        ⟨hreadable, cause, hreply⟩ | ⟨hunreadable, cause, hreply⟩
      · rw [runOn_bind_of_error (hran.trans hreply)]
        refine .own ⟨hreadable, fun members hsome => ?_⟩ (hfailing cause)
        rw [hmembers] at hsome
        cases hsome
      · rw [runOn_bind_of_error (hran.trans hreply)]
        exact .fault (fun hfits => hunreadable hfits.1) cause

/-! The errors in a reply. -/

/-- The errors that a reply reports; one without any counts as a report of the usual one. -/
def errorsIn (reply : Entries) (usual : String) : Value :=
  Entries.orElse reply "errors" (.list [.object [(.str "text", .str usual)]])

/-- Errors that can be taken apart are a list that starts with an object. -/
def Lists (errors : Value) (fields : Entries) (others : List Value) : Prop :=
  errors = .list (.object fields :: others)

variable {reply : Entries} {usual : String}

theorem isShown_errorsIn (h : Entries.IsShown reply) (usual : String) :
    (errorsIn reply usual).IsShown := by
  unfold errorsIn Entries.orElse
  cases hfield : Entries.field? reply "errors" with
  | none => exact ⟨rfl, rfl⟩
  | some v =>
      simp only
      split
      · exact h.field? hfield
      · exact ⟨rfl, rfl⟩

theorem isValue_errorsIn (h : Json.IsValue (.object reply)) (usual : String) :
    Json.IsValue (errorsIn reply usual) := by
  have husual : Json.IsValue (.list [.object [(.str "text", .str usual)]]) := by
    refine .list fun x hx => ?_
    obtain rfl := List.mem_singleton.mp hx
    exact .object (by simp) (by simp [Json.IsValue.str])
  unfold errorsIn Entries.orElse
  cases hfield : Entries.field? reply "errors" with
  | none => exact husual
  | some v =>
      simp only
      split
      · obtain ⟨e, he, rfl⟩ := Option.map_eq_some_iff.mp hfield
        cases h with
        | object _ hvalues => exact hvalues e (List.mem_of_find?_eq_some he)
      · exact husual

/-- The first of the errors, if they are a list that starts with an object, and how it is looked
into. -/
theorem firstError_of_lists (hshown : Entries.IsShown reply) {fields : Entries}
    {others : List Value} (h : Lists (errorsIn reply usual) fields others) :
    firstError reply usual = .ok (.object fields, others.length + 1) ∧
      ∀ name, (Value.object fields).lookUp name = .ok (Entries.field? fields name) := by
  have htree : (Value.list (.object fields :: others)).hasReference = false :=
    h ▸ (isShown_errorsIn hshown usual).1
  have hfields : (Value.object fields).hasReference = false := by
    simp only [Value.hasReference, Value.anyReference, Bool.or_eq_false_iff] at htree ⊢
    exact htree.1
  have hitems :
      (Value.list (.object fields :: others)).items? = some (.object fields :: others) := by
    rw [Value.items?, htree]
    rfl
  constructor
  · unfold Lists errorsIn at h
    simp only [firstError, h, Value.first, Value.count, Value.elements, hitems, Option.getD_some,
      bind, Except.bind, pure, Except.pure]
    rfl
  · intro name
    simp only [Value.lookUp, Value.entries?, hfields, Bool.false_eq_true, if_false]

/-- The first part of a value that JSON can write is no object, or there is none, unless the value
is a list that starts with one. -/
theorem first_of_other {errors : Value} (hvalue : Json.IsValue errors)
    (htree : errors.hasReference = false) (h : ∀ fields others, ¬ Lists errors fields others) :
    (∃ cause, errors.first = .error cause) ∨
      ∃ first, errors.first = .ok first ∧ first.isMapping = false := by
  cases hvalue with
  | null | bool | int | float => exact .inl ⟨_, rfl⟩
  | str s =>
      simp only [Value.first]
      cases s.toList with
      | nil => exact .inl ⟨_, rfl⟩
      | cons c rest => exact .inr ⟨_, rfl, rfl⟩
  | @list items hitems =>
      have hall : (Value.list items).items? = some items := by
        rw [Value.items?, htree]
        rfl
      simp only [Value.first, hall, Option.getD_some]
      cases items with
      | nil => exact .inl ⟨_, rfl⟩
      | cons first others =>
          refine .inr ⟨first, rfl, ?_⟩
          cases hitems first (List.mem_cons_self ..) with
          | object => exact absurd rfl (h _ others)
          | _ => rfl
  | @object es hkeys _ =>
      -- an object is looked into with a number, and its keys are texts
      have hall : (Value.object es).entries? = some es := by
        rw [Value.entries?, htree]
        rfl
      have hnone : Entries.get? es (.int 0) = none := by
        refine Option.map_eq_none_iff.mpr (List.find?_eq_none.mpr fun e he => ?_)
        obtain ⟨name, hname⟩ := hkeys e he
        rw [hname, Value.equals_str_iff]
        intro hkey
        cases hkey
      refine .inl ⟨.noSuchKey (.int 0), ?_⟩
      simp only [Value.first, hall, Option.bind_some, hnone]

/-- Errors of another shape have no first one that can be looked into. -/
theorem firstError_of_other (hvalue : Json.IsValue (.object reply))
    (hshown : Entries.IsShown reply)
    (h : ∀ fields others, ¬ Lists (errorsIn reply usual) fields others) :
    (∃ cause, firstError reply usual = .error cause) ∨
      ∃ first count, firstError reply usual = .ok (first, count) ∧ first.isMapping = false := by
  have hread := isValue_errorsIn hvalue usual
  have htree := (isShown_errorsIn hshown usual).1
  rcases first_of_other hread htree h with ⟨cause, hcause⟩ | ⟨first, hfirst, hplain⟩
  · refine .inl ⟨cause, ?_⟩
    unfold errorsIn at hcause
    simp only [firstError, hcause, bind, Except.bind]
  · refine .inr ⟨first, ((errorsIn reply usual).count.toOption).getD 1, ?_, hplain⟩
    unfold errorsIn at hfirst
    simp only [firstError, hfirst, bind, Except.bind, pure, Except.pure]
    rfl

/-- A failure made of the first error is told if one is told of each object, and none of anything
else. -/
theorem tells_of_firstError {kind : FailureKind} {fits : Prop}
    {tell : Value × Nat → Except Fault Failure} (hvalue : Json.IsValue (.object reply))
    (hshown : Entries.IsShown reply)
    (hlists : ∀ fields others, Lists (errorsIn reply usual) fields others →
      (∀ name, (Value.object fields).lookUp name = .ok (Entries.field? fields name)) →
        Tells kind fits (tell (.object fields, others.length + 1)))
    (hplain : ∀ first count, first.isMapping = false → ∃ cause, tell (first, count) = .error cause)
    (hfits : fits → ∃ fields others, Lists (errorsIn reply usual) fields others) :
    Tells kind fits (firstError reply usual >>= tell) := by
  by_cases hsome : ∃ fields others, Lists (errorsIn reply usual) fields others
  · obtain ⟨fields, others, herrors⟩ := hsome
    obtain ⟨hfirst, hlookUp⟩ := firstError_of_lists hshown herrors
    rw [hfirst]
    exact hlists fields others herrors hlookUp
  · have hnone : ¬ fits := fun h => hsome (hfits h)
    have hother := fun fields others herrors => hsome ⟨fields, others, herrors⟩
    rcases firstError_of_other hvalue hshown hother with
      ⟨cause, hcause⟩ | ⟨first, count, hfirst, hkind⟩
    · rw [hcause]
      exact .fault hnone cause
    · obtain ⟨cause, hcause⟩ := hplain first count hkind
      rw [hfirst]
      change Tells kind fits (tell (first, count))
      rw [hcause]
      exact .fault hnone cause

end Tool

end FunctionPipeline

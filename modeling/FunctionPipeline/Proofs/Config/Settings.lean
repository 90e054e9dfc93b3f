import FunctionPipeline.Config.Basic
import FunctionPipeline.Proofs.Document.LongIntegers

/-!
How settings are taken. A section is read and checked in many small steps, each of which can refuse
the configuration; `Settles` says what comes of a step otherwise. What no step has checked can end
in a fault: a directory that is no text, and an integer too long for the refusal that names it.
-/

namespace FunctionPipeline.Config

variable {α β : Type} {p : α → Prop} {p' : β → Prop} {q q' : Fault → Prop}

/-- A step that gives what has one property, ends in no fault but those with another, and fails
otherwise by refusing the configuration. -/
def Settles (p : α → Prop) (q : Fault → Prop) : Except Failure α → Prop
  | .ok a => p a
  | .error (.config _) => True
  | .error (.fault cause) => q cause
  | .error _ => False

namespace Settles

theorem bind {r : Except Failure α} {next : α → Except Failure β} (h : Settles p q r)
    (hnext : ∀ a, p a → Settles p' q (next a)) : Settles p' q (r >>= next) := by
  cases r with
  | ok a => exact hnext a h
  | error failure => cases failure <;> exact h

theorem mono {r : Except Failure α} {further : α → Prop} (h : Settles p q r)
    (hresult : ∀ a, p a → further a) (hfault : ∀ cause, q cause → q' cause) :
    Settles further q' r := by
  cases r with
  | ok a => exact hresult a h
  | error failure =>
      cases failure with
      | fault cause => exact hfault cause h
      | _ => exact h

theorem refusedFor {v : Value} {telling : String → ConfigError}
    (h : v.hasLongInteger = true → q .longInteger) :
    Settles p q (Config.refusedFor v telling) := by
  unfold Config.refusedFor Value.shown
  cases hlong : v.hasLongInteger with
  | true => exact h hlong
  | false => trivial

/-- A check that refuses what it finds wrong, and the steps after it. -/
theorem check {c : Bool} {r : Except Failure Unit} {rest : Unit → Except Failure α}
    (hr : c = true → Settles (fun _ => False) q r) (hrest : c = false → Settles p q (rest ())) :
    Settles p q (if c = true then r >>= rest else rest ()) := by
  cases c with
  | true => exact (hr rfl).bind fun _ hnone => hnone.elim
  | false => exact hrest rfl

/-- A check that is the last step. -/
theorem checkLast {p : Unit → Prop} {c : Bool} {r : Except Failure Unit}
    (hr : c = true → Settles (fun _ => False) q r) (hrest : c = false → p ()) :
    Settles p q (if c = true then r else pure ()) := by
  cases c with
  | true => exact (hr rfl).mono (fun _ hnone => hnone.elim) fun _ hcause => hcause
  | false => exact hrest rfl

theorem inSection {p : Unit → Prop} {r : Except Failure Unit} (name : String)
    (h : Settles p q r) : Settles p q (Config.inSection name r) := by
  cases r with
  | ok => exact h
  | error failure => cases failure <;> exact h

end Settles

/-! Reading a section. -/

def settingIn? (found : Option Value) (key : String) : Option Value := found.bind (·.part? key)

/-- A section that is taken has the entries of what stands there. -/
theorem eq_of_sectionOf {what : String} {found : Option Value} {settings : Entries}
    (h : sectionOf what found = .ok settings) :
    settings = (found.bind Value.entries?).getD [] := by
  unfold sectionOf at h
  split at h
  next hnull =>
    cases h
    cases found with
    | none => rfl
    | some v =>
        obtain rfl : v = .null := hnull
        rfl
  next es hmapping =>
    cases h
    cases found with
    | none => cases hmapping
    | some v =>
        obtain rfl : v = .object es := hmapping
        rfl
  next => cases h

theorem field?_sectionOf {what : String} {found : Option Value} {settings : Entries}
    (h : sectionOf what found = .ok settings) (key : String) :
    Entries.field? settings key = settingIn? found key := by
  rw [eq_of_sectionOf h]
  cases found with
  | none => rfl
  | some v =>
      simp only [settingIn?, Option.bind_some, Value.part?]
      cases v.entries? <;> rfl

theorem isShort_sectionOf {what : String} {found : Option Value} {settings : Entries}
    (h : sectionOf what found = .ok settings) (hfound : ∀ v, found = some v → v.IsShort) :
    Entries.IsShort settings := by
  rw [eq_of_sectionOf h]
  cases hentries : found.bind Value.entries? with
  | none => rfl
  | some es =>
      obtain ⟨v, hv, hes⟩ := Option.bind_eq_some_iff.mp hentries
      exact (hfound v hv).entries? hes

/-- A section is taken, or the configuration is refused. -/
theorem settles_sectionOf (what : String) (found : Option Value) :
    Settles (fun settings => sectionOf what found = .ok settings) q (sectionOf what found) := by
  cases h : sectionOf what found with
  | ok settings => rfl
  | error failure =>
      unfold sectionOf at h
      split at h <;> cases h
      trivial

theorem settles_itemsOf (what : String) (found : Option Value) :
    Settles (fun _ => True) q (itemsOf what found) := by
  unfold itemsOf
  split <;> trivial

/-- A directory that counts as one and is no text. -/
inductive IsNoPath (found : Option Value) : Fault → Prop
  | intro {v : Value} (hfound : found = some v) (htrue : v.isTrue = true)
      (hplain : ∀ s, v ≠ .str s) : IsNoPath found (.notPath v.typeName)

theorem settles_directoryIn {settings : Entries} {key : String} :
    Settles (fun _ => True) (IsNoPath (Entries.field? settings key))
      (directoryIn settings key) := by
  unfold directoryIn Entries.orElse
  cases hfound : Entries.field? settings key with
  | none => trivial
  | some v =>
      simp only
      cases htrue : v.isTrue with
      | false => trivial
      | true =>
          cases v with
          | null => trivial
          | str s => trivial
          | _ => exact .intro rfl htrue (fun _ => Value.noConfusion)

/-! What checks say of settings. -/

def IsPositive (v : Value) : Prop :=
  ∃ place, v.position? = some place ∧ Binary64.Position.before (.at 0) place = true

theorem isPositive_of_units {v : Value} {units : Int} (hv : v.position? = some (.at units))
    (hunits : 0 < units) : IsPositive v := ⟨_, hv, decide_eq_true hunits⟩

/-- A timeout that passes the check is a number above zero, or not-a-number. -/
theorem positive_or_nan {v : Value} (h : isTimeout v = true) :
    IsPositive v ∨ ∃ origin, v = .float (.nan origin) := by
  have hunit : (0 : Int) < Binary64.unit := Int.natCast_pos.mpr Binary64.unit_pos
  cases v with
  | bool b =>
      cases b with
      | true => exact .inl (isPositive_of_units rfl hunit)
      | false => cases h
  | int n =>
      have hn : 0 < n := of_decide_eq_true h
      exact .inl (isPositive_of_units rfl (Int.mul_pos hn hunit))
  | float x =>
      cases x with
      | nan origin => exact .inr ⟨origin, rfl⟩
      | finite negative rank => exact .inl ⟨_, rfl, h⟩
      | infinite negative =>
          cases negative with
          | true => cases h
          | false => exact .inl ⟨_, rfl, rfl⟩
  | _ => cases h

theorem typeName_eq_str_iff {v : Value} : v.typeName = "str" ↔ ∃ s, v = .str s := by
  cases v with
  | str s => simp [Value.typeName]
  | sequence access => cases access <;> simp [Value.typeName]
  | mapping access => cases access <;> simp [Value.typeName]
  | _ => simp [Value.typeName]

/-- A value that equals one of several texts is one of them. -/
theorem of_isOneOf_texts {v : Value} {names : List String}
    (h : isOneOf v (names.map .str) = true) : ∃ name ∈ names, v = .str name := by
  obtain ⟨c, hc, hequal⟩ := List.any_eq_true.mp h
  obtain ⟨name, hname, rfl⟩ := List.mem_map.mp hc
  exact ⟨name, hname, (Value.equals_str_iff v name).mp hequal⟩

/-- A fault that a refusal ends in for an integer that it cannot tell. -/
def IsUntold (short : Prop) (cause : Fault) : Prop := cause = .longInteger ∧ ¬ short

theorem IsUntold.refusedFor {v : Value} {telling : String → ConfigError} {short : Prop}
    (h : short → v.IsShort) : Settles p (IsUntold short) (Config.refusedFor v telling) := by
  refine Settles.refusedFor fun hlong => ⟨rfl, fun hshort => ?_⟩
  have hnone : v.hasLongInteger = false := h hshort
  rw [hlong] at hnone
  cases hnone

namespace Bundling

def AreShort (b : Bundling) : Prop :=
  b.platform.IsShort ∧ b.format.IsShort ∧ b.sourceMap.IsShort

theorem settles_ofSection (found : Option Value) :
    Settles (fun b => b.timeout = (settingIn? found "timeout_s").getD usualTimeout ∧
        ((∀ v, found = some v → v.IsShort) → b.AreShort))
      (IsNoPath (settingIn? found "working_dir")) (ofSection found) := by
  refine (settles_sectionOf "bundler" found).bind fun settings hsettings => ?_
  refine (settles_itemsOf _ _).bind fun external _ => ?_
  rw [← field?_sectionOf hsettings "working_dir"]
  refine settles_directoryIn.bind fun directory _ => ?_
  refine ⟨by rw [← field?_sectionOf hsettings]; rfl, fun hfound => ?_⟩
  have hshort := isShort_sectionOf hsettings hfound
  exact ⟨hshort.getD _ rfl, hshort.getD _ rfl, hshort.getD _ rfl⟩

theorem settles_check (b : Bundling) :
    Settles (fun _ => isTimeout b.timeout = true ∧ ∀ name ∈ b.external, ∃ s, name = .str s)
      (IsUntold b.AreShort) b.check := by
  unfold check
  refine .check (fun _ => IsUntold.refusedFor fun h => h.1) fun _ => ?_
  refine .check (fun _ => IsUntold.refusedFor fun h => h.2.1) fun _ => ?_
  refine .check (fun _ => IsUntold.refusedFor fun h => h.2.2) fun _ => ?_
  refine .check (fun _ => trivial) fun htimeout => ?_
  refine .checkLast (fun _ => trivial) fun hexternal => ?_
  refine ⟨by simpa using htimeout, fun name hname => typeName_eq_str_iff.mp ?_⟩
  have hall := List.any_eq_false.mp hexternal name hname
  simpa using hall

end Bundling

namespace Downgrading

theorem settles_ofSection (found : Option Value) :
    Settles (fun d => d.timeout = (settingIn? found "timeout_s").getD usualTimeout)
      (IsNoPath (settingIn? found "working_dir")) (ofSection found) := by
  refine (settles_sectionOf "downgrader" found).bind fun settings hsettings => ?_
  refine (settles_itemsOf _ _).bind fun plugins _ => ?_
  rw [← field?_sectionOf hsettings "working_dir"]
  refine settles_directoryIn.bind fun directory _ => ?_
  rw [← field?_sectionOf hsettings]
  rfl

theorem settles_check (d : Downgrading) :
    Settles (fun _ => isTimeout d.timeout = true) (fun _ => False) d.check := by
  unfold check
  refine .check (fun _ => trivial) fun _ => ?_
  refine .check (fun _ => trivial) fun _ => ?_
  refine .checkLast (fun _ => trivial) fun htimeout => ?_
  simpa using htimeout

end Downgrading

namespace Composition

theorem settles_ofSection (found : Option Value) :
    Settles (fun c => (∀ v, found = some v → v.IsShort) → Entries.IsShort c.annotations)
      (fun _ => False) (ofSection found) := by
  refine (settles_sectionOf "manifest" found).bind fun settings hsettings => ?_
  refine (settles_sectionOf _ _).bind fun type htype => ?_
  refine (settles_sectionOf _ _).bind fun annotations hannotations hfound => ?_
  have hshort := isShort_sectionOf hsettings hfound
  exact isShort_sectionOf hannotations fun v hv => hshort.get? hv

theorem settles_check (c : Composition) :
    Settles (fun _ => ∀ e ∈ c.annotations, ∃ s, e.2 = .str s)
      (IsUntold (Entries.IsShort c.annotations)) c.check := by
  unfold check
  cases List.find? (fun r => !r.2.isTrue) c.requirements with
  | some required => trivial
  | none =>
      simp only
      cases hfound : List.find? (fun a => decide (a.2.typeName ≠ "str")) c.annotations with
      | some found =>
          refine IsUntold.refusedFor fun hshort => ?_
          exact hshort.key (List.mem_of_find?_eq_some hfound)
      | none =>
          intro e he
          have hkind := List.find?_eq_none.mp hfound e he
          exact typeName_eq_str_iff.mp (by simpa using hkind)

end Composition

end FunctionPipeline.Config

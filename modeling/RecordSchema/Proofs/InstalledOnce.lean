/-
# A set is installed once

The first operation whose declarations resolve decides which set is in force.  Until then there
is none, so everything that asks for one fails, and attempts that do not resolve leave nothing
behind.  From then on the set stays, whatever is tried, and no declarations are resolved again.

`Step.Refused` says what comes of an operation before, and `Step.Served` what comes of it after;
each is what one step keeps up (`Installation.refused_step`, `Installation.served_step`).  For
whole runs `run_installs_once` puts them together, and adds that the log has one line about a
resolved set, or none.
-/
import RecordSchema.Installation
import RecordSchema.Proofs.StrayKeys
import Mathlib.Data.List.Forall2

namespace RecordSchema

/-! ## Operations before and after -/

namespace Operation

/-- The declarations that an operation resolves if no set is in force. -/
def declared? : Operation → Option (List Declaration)
  | .resolve => some Model.declarations
  | .install declared => some declared
  | _ => none

/-- The declarations of an operation resolve to a set. -/
def Builds (op : Operation) (S : Schemas) : Prop :=
  ∃ declared, op.declared? = some declared ∧ RecordSchema.resolve declared = .ok S

/-- The declarations of a test read resolve. -/
lemma builds_resolve : resolve.Builds Model.schemas :=
  ⟨Model.declarations, rfl, Model.resolve_declarations⟩

/-- What an operation yields by a set in force. -/
def answer (S : Schemas) : Operation → Except Fault Outcome
  | .validate record payload => (S.validate record payload).map .errors
  | .construct R payload => (S.construct R payload).map .constructed
  | .encode R r options => (S.encode R r options).map .encoded
  | _ => .ok (.schemas S false)

end Operation

namespace Step

/-- An operation fails for want of a set, or because its own declarations do not resolve.  It
leaves no set behind and no line in the log. -/
structure Refused (op : Operation) (step : Step) : Prop where
  after : step.after = .nothing
  outcome : match op.declared? with
    | some declared => ∃ e, RecordSchema.resolve declared = .error e ∧
      step.outcome = .error (.unresolvable e)
    | none => step.outcome = .error .unresolved
  events : step.events = []

/-- What comes of the operation that builds a set: it is in force, and the log says so. -/
def built (S : Schemas) : Step := ⟨⟨some S⟩, .ok (.schemas S true), [.resolved S.size]⟩

/-- An operation is answered by the set in force, which stays in force, and resolves nothing. -/
structure Served (S : Schemas) (op : Operation) (step : Step) : Prop where
  after : step.after = ⟨some S⟩
  outcome : step.outcome = op.answer S
  resolved : ∀ fault, step.outcome = .error fault → fault.message ≠ Fault.unresolved.message
  events : ∀ event ∈ step.events, event.level ≠ "DEBUG"

end Step

/-! ## Faults for want of a set -/

/-- No other fault has the text of a missing set. -/
lemma Fault.eq_unresolved_of_message {fault : Fault}
    (h : fault.message = Fault.unresolved.message) : fault = .unresolved := by
  -- The texts differ from it by their eighth character at the latest.
  have hprefix := congrArg (fun text => text.toList.take 8) h
  cases fault with
  | unresolved => rfl
  | unresolvable cause =>
    cases cause <;> simp [message, ResolveError.message, String.toList_append] at hprefix
  | _ => simp [message, String.toList_append] at hprefix

namespace Schemas

variable {S : Schemas} {fault : Fault}

lemma lookup_ne_unresolved {record : String} (h : S.lookup record = .error fault) :
    fault ≠ .unresolved := by
  rw [lookup] at h
  split at h
  · cases h
  · obtain rfl := Except.error.inj h
    simp

lemma validate_ne_unresolved {record : String} {payload : Json}
    (h : S.validate record payload = .error fault) : fault ≠ .unresolved :=
  lookup_ne_unresolved (eq_error_of_map h)

lemma encode_ne_unresolved {α : Type} {R : RecordType α} {r : α} {options : EncodeOptions}
    (h : S.encode R r options = .error fault) : fault ≠ .unresolved := by
  rw [encode] at h
  rcases eq_error_of_bind h with hlookup | ⟨i, -, hwrite⟩
  · exact lookup_ne_unresolved hlookup
  · split at hwrite
    · obtain ⟨record, keys, rfl⟩ := exists_strayKeys_of_encodeRecord hwrite
      simp
    · obtain rfl := Except.error.inj hwrite
      simp
    · obtain rfl := Except.error.inj hwrite
      simp

end Schemas

/-- A set in force has other faults than that there is none. -/
lemma Operation.message_ne_of_answer {S : Schemas} {op : Operation} {fault : Fault}
    (h : op.answer S = .error fault) : fault.message ≠ Fault.unresolved.message := by
  intro hmessage
  have hfault := Fault.eq_unresolved_of_message hmessage
  cases op with
  | validate record payload => exact Schemas.validate_ne_unresolved (eq_error_of_map h) hfault
  | construct R payload =>
    exact Schemas.validate_ne_unresolved (eq_error_of_map (eq_error_of_map h)) hfault
  | encode R r options => exact Schemas.encode_ne_unresolved (eq_error_of_map h) hfault
  | _ => cases h

/-- A construction leaves no line about a resolved set. -/
lemma Event.level_of_mem_ofConstructed {α : Type} {record : String}
    {result : Except Fault (Except ValidationError α)} {event : Event}
    (h : event ∈ Event.ofConstructed record result) : event.level = "TRACE" := by
  match result, h with
  | .ok (.error e), h =>
    rw [List.mem_singleton.1 h]
    rfl
  | .ok (.ok r), h => cases h
  | .error fault, h => cases h

/-! ## One step -/

namespace Installation

variable {S : Schemas} {op : Operation}

lemma step_of_declared? {declared : List Declaration} (h : op.declared? = some declared)
    (i : Installation) : i.step op = i.install declared := by
  cases op <;> cases h <;> rfl

/-- While no set is in force, an operation that builds none is refused. -/
theorem refused_step (h : ∀ S, ¬ op.Builds S) : Step.Refused op (nothing.step op) := by
  cases hdeclared : op.declared? with
  | some declared =>
    cases hresolve : RecordSchema.resolve declared with
    | ok S => exact absurd ⟨declared, hdeclared, hresolve⟩ (h S)
    | error e =>
      have hstep : nothing.step op = ⟨nothing, .error (.unresolvable e), []⟩ := by
        rw [step_of_declared? hdeclared]
        simp [install, nothing, hresolve, Event.ofResolved]
      refine ⟨by rw [hstep], ?_, by rw [hstep]⟩
      rw [hdeclared, hstep]
      exact ⟨e, hresolve, rfl⟩
  | none =>
    cases op with
    | resolve => cases hdeclared
    | install declared => cases hdeclared
    | _ => exact ⟨rfl, rfl, rfl⟩

/-- While no set is in force, an operation that builds one installs it. -/
theorem step_of_builds (h : op.Builds S) : nothing.step op = .built S := by
  obtain ⟨declared, hdeclared, hresolve⟩ := h
  rw [step_of_declared? hdeclared]
  simp [install, nothing, hresolve, Event.ofResolved, Step.built]

lemma outcome_step_of_inForce (S : Schemas) (op : Operation) :
    ((⟨some S⟩ : Installation).step op).outcome = op.answer S := by
  cases op with
  | validate record payload =>
    show (unchanged _ _ _ (S.validate record payload)).outcome = _
    rw [Operation.answer]
    cases S.validate record payload <;> rfl
  | construct R payload =>
    show (unchanged _ _ _ (S.construct R payload)).outcome = _
    rw [Operation.answer]
    cases S.construct R payload <;> rfl
  | encode R r options =>
    show (unchanged _ _ _ (S.encode R r options)).outcome = _
    rw [Operation.answer]
    cases S.encode R r options <;> rfl
  | _ => rfl

/-- A set in force answers every operation and stays in force. -/
theorem served_step (S : Schemas) (op : Operation) :
    Step.Served S op ((⟨some S⟩ : Installation).step op) where
  after := by cases op <;> rfl
  outcome := outcome_step_of_inForce S op
  resolved fault h := Operation.message_ne_of_answer ((outcome_step_of_inForce S op).symm.trans h)
  events event h := by
    cases op with
    | construct R payload =>
      rw [Event.level_of_mem_ofConstructed h]
      simp
    | _ => cases h

/-! ## Whole runs -/

/-- If some operation builds a set, there is a first one that does. -/
lemma exists_first_builds {ops : List Operation} (h : ¬ ∀ op ∈ ops, ∀ S, ¬ op.Builds S) :
    ∃ before op later, ops = before ++ op :: later ∧ (∀ o ∈ before, ∀ T, ¬ o.Builds T) ∧
      ∃ S, op.Builds S := by
  induction ops with
  | nil => exact absurd (fun op hop => absurd hop List.not_mem_nil) h
  | cons op rest ih =>
    by_cases hbuilds : ∃ S, op.Builds S
    · exact ⟨[], op, rest, rfl, fun o ho => absurd ho List.not_mem_nil, hbuilds⟩
    · have hquiet : ∀ S, ¬ op.Builds S := not_exists.1 hbuilds
      obtain ⟨before, op', later, rfl, hbefore, hop'⟩ :=
        ih fun hrest => h (List.forall_mem_cons.2 ⟨hquiet, hrest⟩)
      exact ⟨op :: before, op', later, rfl, List.forall_mem_cons.2 ⟨hquiet, hbefore⟩, hop'⟩

lemma forall₂_refused_run {ops : List Operation} (h : ∀ op ∈ ops, ∀ S, ¬ op.Builds S) :
    List.Forall₂ Step.Refused ops (nothing.run ops) := by
  induction ops with
  | nil => exact .nil
  | cons op rest ih =>
    have hstep := refused_step (h op List.mem_cons_self)
    rw [run, hstep.after]
    exact .cons hstep (ih fun o ho => h o (List.mem_cons_of_mem _ ho))

lemma forall₂_served_run (S : Schemas) (ops : List Operation) :
    List.Forall₂ (Step.Served S) ops ((⟨some S⟩ : Installation).run ops) := by
  induction ops with
  | nil => exact .nil
  | cons op rest ih =>
    have hstep := served_step S op
    rw [run, hstep.after]
    exact .cons hstep ih

/-- After operations that build no set, a run goes on as if from the start. -/
lemma run_append_of_refused {ops : List Operation} (h : ∀ op ∈ ops, ∀ S, ¬ op.Builds S)
    (later : List Operation) :
    nothing.run (ops ++ later) = nothing.run ops ++ nothing.run later := by
  induction ops with
  | nil => rfl
  | cons op rest ih =>
    have hstep := refused_step (h op List.mem_cons_self)
    rw [List.cons_append, run, run, hstep.after,
      ih fun o ho => h o (List.mem_cons_of_mem _ ho), List.cons_append]

/-- The lines of the log about resolved sets. -/
def resolutions (steps : List Step) : List Event :=
  (steps.flatMap Step.events).filter fun event => event.level == "DEBUG"

lemma resolutions_append (xs ys : List Step) :
    resolutions (xs ++ ys) = resolutions xs ++ resolutions ys := by
  rw [resolutions, List.flatMap_append, List.filter_append]
  rfl

lemma resolutions_eq_nil {P : Operation → Step → Prop} {ops : List Operation} {steps : List Step}
    (hquiet : ∀ op step, P op step → ∀ event ∈ step.events, event.level ≠ "DEBUG")
    (h : List.Forall₂ P ops steps) : resolutions steps = [] := by
  induction h with
  | nil => rfl
  | @cons op step ops steps hstep _ ih =>
    rw [← List.singleton_append, resolutions_append, ih, List.append_nil, resolutions,
      List.filter_eq_nil_iff]
    intro event hevent
    simpa using hquiet op step hstep event (by simpa using hevent)

lemma resolutions_of_refused {ops : List Operation} {steps : List Step}
    (h : List.Forall₂ Step.Refused ops steps) : resolutions steps = [] :=
  resolutions_eq_nil (fun op step hstep event hevent => by simp [hstep.events] at hevent) h

lemma resolutions_of_served {S : Schemas} {ops : List Operation} {steps : List Step}
    (h : List.Forall₂ (Step.Served S) ops steps) : resolutions steps = [] :=
  resolutions_eq_nil (fun _ _ hstep => hstep.events) h

/-- A run either builds no set, or falls into three parts: operations before, that find no set
and leave none; the operation that builds the set; and operations after, all of them by this set.
The log has a line about a resolved set for the operation that builds it, and no other.  The
declarations of a test read always build a set. -/
theorem run_installs_once (ops : List Operation) :
    Operation.resolve.Builds Model.schemas ∧
    (((∀ op ∈ ops, ∀ S, ¬ op.Builds S) ∧ List.Forall₂ Step.Refused ops (nothing.run ops) ∧
      resolutions (nothing.run ops) = []) ∨
    ∃ before op later S, ops = before ++ op :: later ∧ (∀ o ∈ before, ∀ T, ¬ o.Builds T) ∧
      op.Builds S ∧ ∃ first rest,
        nothing.run ops = first ++ .built S :: rest ∧
        List.Forall₂ Step.Refused before first ∧ List.Forall₂ (Step.Served S) later rest ∧
        resolutions (nothing.run ops) = [.resolved S.size]) := by
  refine ⟨Operation.builds_resolve, ?_⟩
  by_cases hnone : ∀ op ∈ ops, ∀ S, ¬ op.Builds S
  · have hrefused := forall₂_refused_run hnone
    exact .inl ⟨hnone, hrefused, resolutions_of_refused hrefused⟩
  · right
    obtain ⟨before, op, later, rfl, hbefore, S, hbuilds⟩ := exists_first_builds hnone
    have hrefused := forall₂_refused_run hbefore
    have hserved := forall₂_served_run S later
    have hrun : nothing.run (before ++ op :: later) =
        nothing.run before ++ .built S :: Installation.run ⟨some S⟩ later := by
      rw [run_append_of_refused hbefore, run, step_of_builds hbuilds, Step.built]
    refine ⟨before, op, later, S, rfl, hbefore, hbuilds, _, _, hrun, hrefused, hserved, ?_⟩
    rw [hrun, resolutions_append, resolutions_of_refused hrefused, List.nil_append,
      ← List.singleton_append, resolutions_append, resolutions_of_served hserved]
    rfl

end Installation

end RecordSchema

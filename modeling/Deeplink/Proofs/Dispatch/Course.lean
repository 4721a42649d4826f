import Deeplink.Proofs.Dispatch.Pending
import Deeplink.Proofs.Task.Ends

/-!
# The course of a run

What has been asked of the families when a run has succeeded, and what is pending while it goes on.

- `Dispatcher.executed`: each command is checked, and then each of them is started and settles.
- `Dispatcher.calls_of_run`: these are the calls of a run that succeeds.
- `Dispatcher.Course`: what is left of a run, by whether its end clears what is pending.
- `Dispatcher.Course.resume`: as long as anything is left, the same commands are pending.
-/

namespace Deeplink

/-- The end of the runner of a command. -/
def Call.finish (c : Command) : Call := .settled c.method c.name

namespace Dispatcher

open Desk (SamePending)

variable {ρ : Type}

/-! ## Calls -/

/-- The calls of a run of commands that succeeds: first all the checks, then the runners one after
the other. -/
def executed (cs : List Command) : List Call :=
  cs.map Call.check ++ cs.flatMap fun c => [Call.start c, Call.finish c]

/-- Settling a command is one turn: the result is settled and the desk stays. -/
theorem settle_ends_iff {others : Desk ρ → Desk ρ → Prop} {c : Command} {position : Nat}
    {r : Except Failure Json} {x : Except Failure Unit} {desk desk' : Desk ρ} :
    Task.Ends others (settle c position r) desk x desk'
      ↔ x = settled c position r ∧ desk' = desk := by
  refine settle_cases (P := fun t => Task.Ends others t desk x desk' ↔ _) c position r (fun n => ?_)
    ?_
  · exact Task.Ends.prompt_iff (t := .emit (.notice n) (.done (settled c position r))) trivial
  · exact Task.Ends.prompt_iff (t := .done (settled c position r)) trivial

section Calls

variable {d : Dispatcher ρ} {others : Desk (Watched ρ) → Desk (Watched ρ) → Prop}
  {desk desk' : Desk (Watched ρ)}

/-- What passes validation has been granted. -/
theorem grants_of_validate {cs : List Command} {s : ρ} (h : (d.validate cs s).result = .ok ()) :
    d.Grants cs s := by
  rcases d.grants_or_first cs s with hgrants | ⟨before, c, after, rfl, hbefore, hc⟩
  · exact hgrants
  · rcases refused_or_raised hc with ⟨refusal, hrefused⟩ | ⟨e, hraised⟩
    · rw [validate_of_refused hbefore hrefused] at h
      cases h
    · rw [validate_of_raised hbefore hraised] at h
      cases h

/-- Validation that succeeds has checked each command once. -/
theorem calls_of_validate {cs : List Command}
    (h : (Desk.onHost (d.watched.validate cs) desk).result = .ok ()) :
    (Desk.onHost (d.watched.validate cs) desk).state.host.calls
      = desk.host.calls ++ cs.map Call.check := by
  have hgrants := grants_of_validate (s := desk.host) h
  rw [Desk.onHost, Act.focus_apply, validate_of_grants hgrants, watched_asked,
    checks_of_grants ((d.watched_grants cs desk.host).mp hgrants)]

variable (hothers : ∀ {desk desk'}, others desk desk' → SameCalls desk desk')

include hothers

/-- A runner that has a family is called once, and its end is noted, whatever it does. -/
theorem calls_of_runner {c : Command} {v : Json}
    (h : Task.Ends others (d.watched.runner c) desk (.ok v) desk') :
    desk'.host.calls = desk.host.calls ++ [Call.start c, Call.finish c] := by
  unfold runner at h
  rw [watched_lookup] at h
  cases hlookup : d.table.lookup c.method with
  | none =>
    rw [hlookup] at h
    cases h
  | some family =>
    rw [hlookup] at h
    -- the note of the start, the runner itself, and the note of its end
    cases h with
    | act h =>
      have h : Task.Ends others
          (((family.run c.name c.args).focus Watched.forget Watched.remember).ensuring
            (Watched.noteOn (Call.finish c)))
          (Watched.noteOn (Call.start c) desk) (.ok v) desk' := h
      obtain ⟨r, desk₁, hrun, hsettled⟩ := Task.Ends.of_bind_ok h
      obtain ⟨x, -, hrun⟩ := hrun.of_attempt
      have hkeeps : ((family.run c.name c.args).focus Watched.forget Watched.remember).Keeps
          SameCalls :=
        .focus (.of_forall (R := fun _ _ => True) _ fun _ _ => trivial) fun _ _ _ => rfl
      have hsame := hrun.keeps SameCalls.isPreorder hothers hkeeps
      cases hsettled with
      | act hdone =>
        cases hdone with
        | done =>
          show desk₁.host.calls ++ [Call.finish c] = _
          rw [hsame]
          exact List.append_assoc _ _ _

/-- A command that has been run has been started, and its runner has settled. -/
theorem calls_of_runAt {c : Command} {position : Nat}
    (h : Task.Ends others (d.watched.runAt c position) desk (.ok ()) desk') :
    desk'.host.calls = desk.host.calls ++ [Call.start c, Call.finish c] := by
  cases hknows : d.watched.knows c with
  | false =>
    rw [runAt_of_not_knows hknows] at h
    cases h
  | true =>
    rw [runAt_of_knows hknows] at h
    obtain ⟨r, desk₁, hrun, hsettle⟩ := Task.Ends.of_bind_ok h
    obtain ⟨x, hx, hrun⟩ := hrun.of_attempt
    obtain rfl := Except.ok.inj hx
    obtain ⟨hr, rfl⟩ := settle_ends_iff.mp hsettle
    cases r with
    | ok v => exact calls_of_runner hothers hrun
    | error e => cases hr

theorem calls_of_runFrom {cs : List Command} {position : Nat}
    (h : Task.Ends others (d.watched.runFrom position cs) desk (.ok ()) desk') :
    desk'.host.calls
      = desk.host.calls ++ cs.flatMap fun c => [Call.start c, Call.finish c] := by
  induction cs generalizing position desk with
  | nil =>
    cases h with
    | done => exact (List.append_nil _).symm
  | cons c cs ih =>
    obtain ⟨u, desk₁, hfirst, hrest⟩ := Task.Ends.of_bind_ok h
    rw [ih hrest, calls_of_runAt hothers hfirst, List.flatMap_cons, List.append_assoc]

/-- **The calls of a run that succeeds** are all its checks, and then its commands, one after the
other; their number is the result. -/
theorem calls_of_run {cs : List Command} {n : Nat}
    (h : Task.Ends others (d.watched.run cs) desk (.ok n) desk') :
    n = cs.length ∧ desk'.host.calls = desk.host.calls ++ executed cs := by
  obtain ⟨u, desk₁, hvalidate, hrest⟩ := Task.Ends.of_bind_ok h
  obtain ⟨u', desk₂, hrun, hdone⟩ := Task.Ends.of_bind_ok hrest
  obtain ⟨hvalid, rfl⟩ := hvalidate.of_ofAct
  cases hdone with
  | done =>
    refine ⟨rfl, ?_⟩
    rw [calls_of_runFrom hothers hrun, calls_of_validate hvalid.symm, executed, List.append_assoc]

/-- A run of what is pending that succeeds has run all of it. -/
theorem calls_of_runOnce {n : Nat}
    (h : Task.Ends others d.watched.runOnce desk (.ok n) desk') :
    n = desk.pending.length ∧ desk'.host.calls = desk.host.calls ++ executed desk.pending := by
  rw [runOnce_eq] at h
  obtain ⟨count, desk₁, hrun, hclear⟩ := h.of_bind_ok
  have hcalls := calls_of_run hothers hrun.of_get_bind
  cases hclear with
  | act hdone =>
    cases hdone with
    | done => exact hcalls

end Calls

/-! ## What is pending meanwhile -/

/-- What follows a run that succeeds: nothing, or what is pending is cleared. -/
def ending (clears : Bool) (count : Nat) : Task (Desk ρ) Nat :=
  if clears then clearing count else .done (.ok count)

/-- What is left of a run, which leaves alone what is pending until its end. -/
def Course (clears : Bool) (left : Task (Desk ρ) Nat) : Prop :=
  ∃ u : Task (Desk ρ) Nat,
    left = u.bind (ending clears) ∧ u.isDone = false ∧ u.Keeps SamePending

/-- What a run that has come some way has done to what is pending: nothing, unless it has succeeded
and clears it. -/
def Spares (clears : Bool) (desk : Desk ρ) (p : Task.Progress (Desk ρ) Nat) : Prop :=
  (∀ r, p.task = .done r →
      p.state.pending = if clears && r.isOk then [] else desk.pending)
    ∧ (p.task.isDone = false → p.state.pending = desk.pending ∧ Course clears p.task)

theorem course_runOnce {d : Dispatcher ρ} (hd : d.LeavesPending) : Course true d.runOnce :=
  ⟨d.runPending, rfl, rfl, runPending_keeps_pending hd⟩

theorem course_runFragment {d : Dispatcher ρ} (hd : d.LeavesPending) (raw : Option Text) :
    Course false (d.runFragment raw) :=
  ⟨d.runFragment raw, (Task.bind_done _).symm, rfl, runFragment_keeps_pending hd raw⟩

section Course

variable {clears : Bool}

theorem Course.isDone {left : Task (Desk ρ) Nat} (h : Course clears left) :
    left.isDone = false := by
  obtain ⟨u, rfl, hu, -⟩ := h
  cases u with
  | done r => cases hu
  | _ => rfl

variable (isOpen : Text → Bool) (reach : Task.Reach)

/-- The end of a run comes in the same turn as its result. -/
theorem spares_andThen {desk : Desk ρ} {p : Task.Progress (Desk ρ) Nat}
    (hpending : SamePending desk p.state) (hkeeps : p.task.Keeps SamePending) :
    Spares clears desk (p.andThen isOpen reach (ending clears)) := by
  obtain ⟨t, state, trace, cameToGate⟩ := p
  cases t with
  | done r =>
    cases r with
    | ok n =>
      cases clears with
      | true =>
        refine ⟨?_, fun h => nomatch h⟩
        rintro r ⟨⟩
        rfl
      | false =>
        refine ⟨?_, fun h => nomatch h⟩
        rintro r ⟨⟩
        exact hpending
    | error e =>
      refine ⟨?_, fun h => nomatch h⟩
      rintro r ⟨⟩
      rw [Except.isOk, Except.toBool, Bool.and_false]
      exact hpending
  | _ => exact ⟨fun r hr => (nomatch hr), fun _ => ⟨hpending, _, rfl, rfl, hkeeps⟩⟩

theorem Course.work {left : Task (Desk ρ) Nat} (h : Course clears left) (desk : Desk ρ) :
    Spares clears desk (left.work isOpen reach desk) := by
  obtain ⟨u, rfl, -, hu⟩ := h
  rw [Task.work_bind]
  obtain ⟨hpending, hkeeps⟩ := hu.work SamePending.isPreorder isOpen reach desk
  exact spares_andThen isOpen reach hpending hkeeps

/-- **A run that goes on leaves alone what is pending until its end.** -/
theorem Course.resume {left : Task (Desk ρ) Nat} (h : Course clears left)
    (desk : Desk ρ) : Spares clears desk (left.resume isOpen reach desk) := by
  obtain ⟨u, rfl, hdone, hu⟩ := h
  rw [Task.resume_bind hdone]
  obtain ⟨hpending, hkeeps⟩ := hu.resume SamePending.isPreorder isOpen reach desk
  exact spares_andThen isOpen reach hpending hkeeps

end Course

end Dispatcher

end Deeplink

import Deeplink.Proofs.Dispatch.Course
import Deeplink.Proofs.Http.Loading

/-!
# Reports of runs

- `Http.executed?`: how many commands a reply says have been executed.
- `Http.Service.Reports`: what follows a dispatch reports it exactly if it has succeeded.
- `Http.Service.Entered`: what a request that enters its endpoint does to the desk: nothing, a load,
  or the begin of a dispatch.
- `Http.Service.Closes`: a dispatch that has come some way is suspended, or it is reported.
-/

namespace Deeplink.Http

variable {ρ : Type}

/-! ## Reports -/

/-- How many commands have been executed, if the data of a report says so. -/
def Content.executed? : Content → Option Nat
  | .data (.obj members) =>
    match Json.member? "executed" members with
    | some (.int n) => some n.toNat
    | _ => none
  | _ => none

/-- The same of a reply, which reports nothing but successes. -/
def Reply.executed? (reply : Reply) : Option Nat :=
  if reply.response.status = 200 then reply.response.content.executed? else none

/-- How many commands have been executed, if a task has ended with a reply that reports it. -/
def executed? : Task (App ρ) Reply → Option Nat
  | .done (.ok reply) => reply.executed?
  | _ => none

/-- A request that has not been answered has not been reported as a success. -/
theorem executed?_eq_none {t : Task (App ρ) Reply} (h : t.isDone = false) : executed? t = none := by
  cases t with
  | done r => cases h
  | _ => rfl

/-- No report of a success tells of an error. -/
theorem Reply.executed?_of_error {reply : Reply} {v : Json}
    (h : reply.response.content = .data (.obj [("error", v)])) : reply.executed? = none := by
  unfold executed?
  rw [h]
  split <;> rfl

namespace Service

/-- What follows a dispatch is over at once and touches nothing, and it reports the dispatch exactly
if it has succeeded. -/
def Reports (after : Except Failure Nat → Task (App ρ) Reply) : Prop :=
  ∀ x isOpen reach app, ∃ r trace, (after x).work isOpen reach app = ⟨.done r, app, trace, false⟩
    ∧ executed? (ρ := ρ) (.done r) = x.toOption

/-- What becomes of a failure is no report of a success. -/
theorem executed?_conclude_error (s : Service ρ) (r : Request) (e : Failure)
    (isOpen : Text → Bool) (reach : Task.Reach) (app : App ρ) :
    ∃ x trace, (s.conclude r (.error e)).work isOpen reach app = ⟨.done x, app, trace, false⟩
      ∧ executed? (ρ := ρ) (.done x) = none := by
  obtain ⟨x, trace, hwork, -, hreply⟩ := s.conclude_error_work r e isOpen reach app
  refine ⟨x, trace, hwork, ?_⟩
  cases x with
  | error e => rfl
  | ok reply =>
    obtain ⟨⟨v, hv⟩, -⟩ := hreply reply rfl
    exact Reply.executed?_of_error hv

/-- An endpoint that sends a report of its dispatch. -/
theorem reports_of_report (s : Service ρ) (r : Request) {f : Nat → Task (App ρ) Json}
    (hf : ∀ n isOpen reach app, ∃ trace, (f n).work isOpen reach app
      = ⟨.done (.ok (RunReport.mk n).toJson), app, trace, false⟩) :
    Reports (Task.caught (fun n => answering (f n)) (s.conclude r)) := by
  intro x isOpen reach app
  cases x with
  | error e => exact s.executed?_conclude_error r e isOpen reach app
  | ok n =>
    obtain ⟨trace, hwork⟩ := hf n isOpen reach app
    rw [Task.caught_ok, answering, Task.attempt_bind_bind, Task.work_bind, Task.work_attempt, hwork]
    exact ⟨_, _, rfl, rfl⟩

/-- A run of what is pending is reported when its dispatch has ended. -/
theorem runPending_reports (s : Service ρ) (r : Request) : ∃ f,
    s.runPending = (exclusively (App.onDesk s.dispatcher.runOnce)).bind f
      ∧ Reports (Task.caught (fun n => answering (f n)) (s.conclude r)) :=
  ⟨_, rfl, s.reports_of_report r fun _ _ _ _ => ⟨_, rfl⟩⟩

/-- A run of a fragment is reported when its dispatch has ended. -/
theorem run_reports (s : Service ρ) (r : Request) (hash : Text) : ∃ f,
    s.run hash = (exclusively (App.onDesk (s.dispatcher.runFragment (some hash)))).bind f
      ∧ Reports (Task.caught (fun n => answering (f n)) (s.conclude r)) :=
  ⟨_, rfl, s.reports_of_report r fun _ _ _ _ => ⟨_, rfl⟩⟩

/-! ## Entering an endpoint -/

/-- What a request that enters its endpoint does to the desk: nothing, because it only reads or is
declined; the commands of a fragment become the pending ones; or a dispatch begins while no other
is under way. -/
inductive Entered (s : Service ρ) (r : Request) (isOpen : Text → Bool) (reach : Task.Reach)
    (app : App ρ) (p : Task.Progress (App ρ) Reply) : Prop where
  | aside (hdone : p.task.isDone = true) (hdesk : p.state.desk = app.desk)
      (hload : Address.ofRequest r = .endpoint .load → ∀ hash, ¬ s.Takes r app hash)
      (hreport : Address.ofRequest r = .endpoint .runPending → executed? p.task = none)
  | loaded (hash : Text) (hr : Address.ofRequest r = .endpoint .load) (htakes : s.Takes r app hash)
      (hdone : p.task.isDone = true)
      (hdesk : p.state.desk
        = ⟨Fragment.commands s.dispatcher.methods (some hash), app.desk.host⟩)
  | begun (t : Task (Desk ρ) Nat) (after : Except Failure Nat → Task (App ρ) Reply)
      (settings : Settings.Store) (trace : List Signal) (hidle : app.isBusy = false)
      (hasks : Asks s r t) (hafter : Reports after)
      (hp : p = ((closing t after).work isOpen reach
        (mark true { app with settings })).behind trace false)

section Entered

variable (s : Service ρ) {r : Request} (isOpen : Text → Bool) (reach : Task.Reach) (app : App ρ)

/-- The desk is left alone. -/
def SameDesk (app app' : App ρ) : Prop := app'.desk = app.desk

theorem SameDesk.isPreorder : IsPreorder (SameDesk (ρ := ρ)) where
  refl _ := rfl
  trans h h' := h'.trans h

/-- A task that is never suspended and leaves the desk alone is over at once. -/
theorem sameDesk_of_prompt {t : Task (App ρ) Reply} (ht : t.Prompt) (hk : t.Keeps SameDesk) :
    (t.work isOpen reach app).task.isDone = true
      ∧ (t.work isOpen reach app).state.desk = app.desk := by
  refine ⟨?_, (hk.work SameDesk.isPreorder isOpen reach app).1⟩
  rw [ht.work_eq]
  rfl

/-- So is an endpoint of this kind. -/
theorem sameDesk_of_entry {t : Task (App ρ) Response} (ht : t.Prompt) (hk : t.Keeps SameDesk) :
    ((t.attempt.bind (s.conclude r)).work isOpen reach app).task.isDone = true
      ∧ ((t.attempt.bind (s.conclude r)).work isOpen reach app).state.desk = app.desk :=
  sameDesk_of_prompt isOpen reach app (ht.attempt.bind (s.conclude_prompt r))
    (hk.attempt.bind (s.conclude_keeps SameDesk.isPreorder.refl r))

theorem onBody_keeps_desk {act : Text → Task (App ρ) Json}
    (hk : ∀ hash, (act hash).Keeps SameDesk) : (s.onBody r act).Keeps SameDesk :=
  .bind (.ofAct fun _ => rfl) fun _ => onFragment_keeps fun hash _ => hk hash

theorem onBody_prompt {act : Text → Task (App ρ) Json} (hact : ∀ hash, (act hash).Prompt) :
    (s.onBody r act).Prompt :=
  .bind (.ofAct _) fun _ => onFragment_prompt fun hash _ => hact hash

/-- Without a sink, reading a fragment touches nothing. -/
theorem parse_keeps_desk (hsink : s.dispatcher.sink = none) (hash : Text) :
    (s.parse hash).Keeps SameDesk := by
  refine .bind (.focus (.ofAct (R := Eq) fun desk => ?_) fun desk app h => ?_)
    fun commands => s.sent_keeps SameDesk.isPreorder.refl commands
  · rw [Desk.onHost, Act.focus_apply, Dispatcher.parse, hsink, Fragment.parse_logged]
  · exact h.symm

/-- Loading asks for no dispatch. -/
theorem not_load_of_asks {t : Task (Desk ρ) Nat} (h : Asks s r t) :
    Address.ofRequest r ≠ .endpoint .load := by
  cases h with
  | run hr hash => exact fun h => nomatch hr.symm.trans h
  | runPending hr => exact fun h => nomatch hr.symm.trans h

/-- A dispatch begins unless another one is under way, which is reported as no success. -/
theorem exclusively_entered {t : Task (Desk ρ) Nat} {f : Nat → Task (App ρ) Json}
    (hasks : Asks s r t)
    (hafter : Reports (Task.caught (fun n => answering (f n)) (s.conclude r)))
    (settings : Settings.Store) (trace : List Signal) :
    Entered s r isOpen reach app (((((answering ((exclusively (App.onDesk t)).bind f)).attempt.bind
      (s.conclude r)).work isOpen reach { app with settings })).behind trace false) := by
  rw [answering, Task.bind_assoc, Task.attempt_bind_bind, exclusively_work]
  by_cases hbusy : ({ app with settings } : App ρ).isBusy = true
  · obtain ⟨x, trace', hwork, hreport⟩ :=
      s.executed?_conclude_error r busy isOpen reach { app with settings }
    rw [if_pos hbusy, Task.caught, hwork]
    exact .aside rfl rfl (fun h => absurd h (s.not_load_of_asks hasks)) fun _ => hreport
  · rw [if_neg hbusy]
    exact .begun t _ settings trace ((Bool.not_eq_true _).mp hbusy) hasks hafter rfl

/-- A run of a fragment begins a dispatch, or it is answered and leaves the desk alone. -/
theorem run_entered (hr : Address.ofRequest r = .endpoint .run) :
    Entered s r isOpen reach app
      (((s.onBody r s.run).attempt.bind (s.conclude r)).work isOpen reach app) := by
  have hload : Address.ofRequest r = .endpoint .load → ∀ hash, ¬ s.Takes r app hash :=
    fun h => nomatch hr.symm.trans h
  have hreport (t : Task (App ρ) Reply) :
      Address.ofRequest r = .endpoint .runPending → executed? t = none :=
    fun h => nomatch hr.symm.trans h
  rw [onBody_work]
  rcases ((s.framework.body r).fragment app.settings).result with e | (refusal | hash)
  · obtain ⟨hdone, hdesk⟩ := sameDesk_of_prompt isOpen reach
      { app with settings := ((s.framework.body r).fragment app.settings).state }
      (s.conclude_prompt r (.error e)) (s.conclude_keeps SameDesk.isPreorder.refl r (.error e))
    exact .aside hdone hdesk hload (hreport _)
  · have hprompt : (onFragment r s.run (.error refusal)).Prompt :=
      onFragment_prompt fun _ h => nomatch h
    have hkeeps : (onFragment r s.run (.error refusal)).Keeps SameDesk :=
      onFragment_keeps fun _ h => nomatch h
    obtain ⟨hdone, hdesk⟩ := s.sameDesk_of_entry (r := r) isOpen reach
      { app with settings := ((s.framework.body r).fragment app.settings).state } hprompt hkeeps
    exact .aside hdone hdesk hload (hreport _)
  · obtain ⟨f, hrun, hafter⟩ := s.run_reports r hash
    rw [Task.caught_ok, onFragment_ok, hrun]
    exact s.exclusively_entered isOpen reach app (.run hr hash) hafter _ _

/-- **What a request that enters its endpoint does to the desk.** -/
theorem entered (hsink : s.dispatcher.sink = none) :
    Entered s r isOpen reach app ((s.respond r).resume isOpen reach app) := by
  by_cases h : ∃ e, Address.ofRequest r = .endpoint e
  · obtain ⟨e, he⟩ := h
    have aside {p : Task.Progress (App ρ) Reply}
        (hp : p.task.isDone = true ∧ p.state.desk = app.desk) (hload : e ≠ .load)
        (hrun : e ≠ .runPending) : Entered s r isOpen reach app p :=
      .aside hp.1 hp.2 (fun h => absurd (Address.endpoint.inj (he.symm.trans h)) hload)
        fun h => absurd (Address.endpoint.inj (he.symm.trans h)) hrun
    cases e with
    | load =>
      by_cases htakes : ∃ hash, s.Takes r app hash
      · obtain ⟨hash, htakes⟩ := htakes
        obtain ⟨trace, hwork⟩ := s.load_taken isOpen reach hsink he htakes
        rw [hwork]
        exact .loaded hash he htakes rfl rfl
      · have hdeclined : ∀ hash, ¬ s.Takes r app hash := fun hash h => htakes ⟨hash, h⟩
        obtain ⟨reply, trace, hwork, -⟩ := s.load_declined isOpen reach he hdeclined
        rw [hwork]
        exact .aside rfl rfl (fun _ => hdeclined) fun h => nomatch he.symm.trans h
    | health =>
      rw [s.resume_respond he]
      exact aside (s.sameDesk_of_entry isOpen reach app (.ofAct _) (.ofAct fun _ => rfl))
        (by decide) (by decide)
    | parse =>
      rw [s.resume_respond he]
      exact aside (s.sameDesk_of_entry isOpen reach app (s.onBody_prompt s.parse_prompt)
        (s.onBody_keeps_desk (s.parse_keeps_desk hsink))) (by decide) (by decide)
    | pending =>
      obtain ⟨trace, hwork⟩ := s.pending_answered isOpen reach he app
      rw [hwork]
      exact aside ⟨rfl, rfl⟩ (by decide) (by decide)
    | runPending =>
      obtain ⟨f, hrun, hafter⟩ := s.runPending_reports r
      rw [s.resume_respond he, entry, hrun]
      exact s.exclusively_entered isOpen reach app (.runPending he) hafter app.settings []
    | run =>
      rw [s.resume_respond he]
      exact s.run_entered isOpen reach app he
  · obtain ⟨reply, hreply⟩ := s.respond_eq_done (r := r) fun e he => h ⟨e, he⟩
    rw [hreply]
    exact .aside rfl rfl (fun hr => absurd ⟨_, hr⟩ h) fun hr => absurd ⟨_, hr⟩ h

end Entered

/-! ## Going on -/

/-- How far a dispatch has come, from what has been done on the desk: it is suspended, or it has
ended and is reported. -/
inductive Closes (after : Except Failure Nat → Task (App ρ) Reply)
    (q : Task.Progress (Desk ρ) Nat) (p : Task.Progress (App ρ) Reply) : Prop where
  | left (hdone : q.task.isDone = false) (htask : p.task = closing q.task after)
      (hdesk : p.state.desk = q.state)
  | settled (r : Except Failure Nat) (hr : q.task = .done r) (hdone : p.task.isDone = true)
      (hdesk : p.state.desk = q.state) (hreport : executed? p.task = r.toOption)

/-- **A dispatch is suspended or reported.** -/
theorem closes {after : Except Failure Nat → Task (App ρ) Reply} (hafter : Reports after)
    (isOpen : Text → Bool) (reach : Task.Reach) (app : App ρ) (q : Task.Progress (Desk ρ) Nat)
    (trace : List Signal) :
    Closes after q ((closed isOpen reach after app q).behind trace false) := by
  cases hdone : q.task.isDone with
  | false =>
    rw [closed_of_left hdone]
    exact .left hdone rfl rfl
  | true =>
    obtain ⟨x, hx⟩ := Task.eq_done_of_isDone hdone
    obtain ⟨r, trace', hwork, hreport⟩ := hafter x isOpen (reach.after q.cameToGate)
      (mark false { app with desk := q.state })
    rw [closed, hx]
    dsimp only
    rw [hwork]
    exact .settled x hx rfl rfl hreport

end Service

end Deeplink.Http

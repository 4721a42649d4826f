import Deeplink.Proofs.Dispatch.Calls
import Deeplink.Proofs.Http.Entry
import Deeplink.Proofs.Text.Scalar

/-!
# Exclusive work

A dispatch marks the application as busy when it begins, and takes the mark away when it has ended.
A dispatch that arrives while another one is in flight is rejected instead of interleaving
(specification, 5).

- `Http.Service.closing`: what is left of a dispatch, and what follows its end.
- `Http.Service.InFlight`: what is left of a request whose dispatch has begun.
- `Http.Service.enter`: a request that enters its endpoint either is answered in the same turn and
  makes no calls, or begins a dispatch while none is under way.
- `Http.Service.goOn`: a dispatch stays the one under way until it has ended.
- `Http.Service.enter_refused`: what may not happen beside a dispatch is refused.
-/

namespace Deeplink.Http

variable {ρ : Type}

namespace App

/-- The desk is a part of the application. -/
theorem desk_isPart : Task.IsPart (App.desk (ρ := ρ)) fun desk app => { app with desk } where
  part_put _ _ := rfl
  put_part _ := rfl
  put_put _ _ _ := rfl

/-- Neither a dispatch begins or ends, nor are any calls made. -/
def Aside (app app' : App (Watched ρ)) : Prop :=
  app'.isBusy = app.isBusy ∧ app'.desk.host.calls = app.desk.host.calls

/-- To leave the desk aside is to leave it aside all the way. -/
theorem Aside.isPreorder : IsPreorder (Aside (ρ := ρ)) where
  refl _ := ⟨rfl, rfl⟩
  trans h h' := ⟨h'.1.trans h.1, h'.2.trans h.2⟩

/-- Calls are only added. -/
def AddsCalls (app app' : App (Watched ρ)) : Prop :=
  Watched.AddsCalls app.desk.host app'.desk.host

theorem Aside.addsCalls {app app' : App (Watched ρ)} (h : Aside app app') : AddsCalls app app' :=
  ⟨[], (List.append_nil _).trans h.2.symm⟩

end App

open App (Aside AddsCalls)

namespace Service

/-- The service with each family of its dispatcher watched. -/
def watched (s : Service ρ) : Service (Watched ρ) := ⟨s.dispatcher.watched, s.framework, s.now⟩

/-! ## Dispatches -/

section Closing

variable {α : Type} {isOpen : Text → Bool}

/-- What a second dispatch ends with. -/
def busy : Failure := Failure.ofCommand (.concurrency busyMessage) {}

/-- To ensure that no dispatch is under way is to look at the mark, and no more. -/
theorem ensureIdle_apply (app : App ρ) :
    ensureIdle app = ⟨if app.isBusy then .error busy else .ok (), app, []⟩ := by
  show (Act.get >>= fun app' : App ρ =>
    if app'.isBusy then Act.fail (Failure.ofCommand (.concurrency busyMessage) {})
    else Pure.pure ()) app = _
  rw [Act.bind_of_ok (a := app) rfl]
  cases app.isBusy <;> rfl

/-- What is left of a dispatch, and what follows its end, which takes the mark away. -/
def closing (left : Task (Desk ρ) Nat) (after : Except Failure Nat → Task (App ρ) α) :
    Task (App ρ) α :=
  (App.onDesk left).attempt.bind fun x => .act (mark false) fun _ => after x

/-- A dispatch that has been left in the middle is not over. -/
theorem closing_isDone (left : Task (Desk ρ) Nat) (after : Except Failure Nat → Task (App ρ) α) :
    (closing left after).isDone = false := by
  cases left <;> rfl

/-- **A second dispatch does not begin**, and the first one is marked. -/
theorem exclusively_work (t : Task (Desk ρ) Nat) (after : Except Failure Nat → Task (App ρ) α)
    (reach : Task.Reach) (app : App ρ) :
    ((exclusively (App.onDesk t)).attempt.bind after).work isOpen reach app =
      if app.isBusy then (after (.error busy)).work isOpen reach app
      else (closing t after).work isOpen reach (mark true app) := by
  show (((Task.ofAct ensureIdle).bind fun _ => (Task.modify (mark true)).bind fun _ =>
    (App.onDesk t).ensuring (mark false)).attempt.bind after).work isOpen reach app = _
  rw [Task.attempt_bind, Task.bind_assoc, Task.work_ofAct_attempt_bind, ensureIdle_apply]
  cases app.isBusy with
  | true => rfl
  | false =>
    show ((((App.onDesk t).attempt.bind fun x => .act (mark false) fun _ => .done x).attempt).bind
      after).work isOpen reach (mark true app) = _
    -- a failure of the dispatch is caught for the mark to be taken away, and then once more
    rw [Task.attempt_bind, Task.bind_assoc, Task.attempt_attempt, Task.bind_assoc]
    rfl

/-- How far a dispatch has come, from what has been done on the desk. -/
def closed (isOpen : Text → Bool) (reach : Task.Reach)
    (after : Except Failure Nat → Task (App ρ) α) (app : App ρ)
    (p : Task.Progress (Desk ρ) Nat) : Task.Progress (App ρ) α :=
  match p.task with
  | .done x =>
    ((after x).work isOpen (reach.after p.cameToGate) (mark false { app with desk := p.state })
      ).behind p.trace p.cameToGate
  | left => ⟨closing left after, { app with desk := p.state }, p.trace, p.cameToGate⟩

/-- While its task is suspended, so is the request, and the mark stays. -/
theorem closed_of_left {after : Except Failure Nat → Task (App ρ) α} {app : App ρ}
    {p : Task.Progress (Desk ρ) Nat} (hp : p.task.isDone = false) (reach : Task.Reach) :
    closed isOpen reach after app p
      = ⟨closing p.task after, { app with desk := p.state }, p.trace, p.cameToGate⟩ := by
  unfold closed
  cases h : p.task with
  | done x =>
    rw [h] at hp
    cases hp
  | _ => rfl

/-- A dispatch that has begun comes as far as its task does. -/
theorem closing_work (t : Task (Desk ρ) Nat) (after : Except Failure Nat → Task (App ρ) α)
    (reach : Task.Reach) (app : App ρ) :
    (closing t after).work isOpen reach app
      = closed isOpen reach after app (t.work isOpen reach app.desk) := by
  rw [closing, Task.work_bind, Task.work_attempt, App.onDesk, Task.work_focus App.desk_isPart,
    closed]
  cases (t.work isOpen reach app.desk).task <;> rfl

/-- A dispatch that goes on comes as far as its task does. -/
theorem closing_resume {t : Task (Desk ρ) Nat} (ht : t.isDone = false)
    (after : Except Failure Nat → Task (App ρ) α) (reach : Task.Reach) (app : App ρ) :
    (closing t after).resume isOpen reach app
      = closed isOpen reach after app (t.resume isOpen reach app.desk) := by
  have hdesk : (App.onDesk (ρ := ρ) t).isDone = false := by rw [App.onDesk, Task.focus_isDone, ht]
  have hattempt : (App.onDesk (ρ := ρ) t).attempt.isDone = false := by
    rw [Task.attempt_isDone, hdesk]
  rw [closing, Task.resume_bind hattempt, Task.resume_attempt hdesk, App.onDesk,
    Task.resume_focus App.desk_isPart, closed]
  cases (t.resume isOpen reach app.desk).task <;> rfl

end Closing

/-! ## What the endpoints do -/

/-- The pending commands are run exclusively; what follows is over at once. -/
theorem runPending_eq (s : Service ρ) : ∃ f : Nat → Task (App ρ) Json,
    (∀ n, (f n).Prompt) ∧ (∀ R n, (f n).Keeps R)
      ∧ s.runPending = (exclusively (App.onDesk s.dispatcher.runOnce)).bind f := by
  refine ⟨_, ?_, ?_, rfl⟩
  · exact fun _ => trivial
  · exact fun _ _ => trivial

/-- So are those of a fragment. -/
theorem run_eq (s : Service ρ) (hash : Text) : ∃ f : Nat → Task (App ρ) Json,
    (∀ n, (f n).Prompt) ∧ (∀ R n, (f n).Keeps R)
      ∧ s.run hash = (exclusively (App.onDesk (s.dispatcher.runFragment (some hash)))).bind f := by
  refine ⟨_, ?_, ?_, rfl⟩
  · exact fun _ => trivial
  · exact fun _ _ => trivial

section Aside

variable (s : Service ρ)

theorem sent_prompt (cs : List Command) : (s.sent cs).Prompt := Task.Prompt.ofAct _

theorem sent_keeps {R : App ρ → App ρ → Prop} (hR : ∀ app, R app app) (cs : List Command) :
    (s.sent cs).Keeps R :=
  .ofAct fun app => hR app

theorem parse_prompt (hash : Text) : (s.parse hash).Prompt :=
  .bind (.focus (.ofAct _)) fun commands => s.sent_prompt commands

theorem load_prompt (hash : Text) : (s.load hash).Prompt :=
  .bind (.ofAct _) fun _ => .bind (.focus (.ofAct _)) fun commands => s.sent_prompt commands

theorem pending_prompt : s.pending.Prompt := fun app => s.sent_prompt app.desk.pending

/-- Parsing calls no family and leaves the mark alone. -/
theorem watched_parse_keeps (hash : Text) : (s.watched.parse hash).Keeps Aside := by
  refine .bind (.focus (.ofAct (R := Dispatcher.SameCalls) fun desk => ?_) fun desk app h => ?_)
    fun commands => s.watched.sent_keeps Aside.isPreorder.refl commands
  · exact s.dispatcher.watched_parse_keeps (some hash) desk.host
  · exact ⟨rfl, h⟩

/-- Loading calls no family and leaves the mark alone. -/
theorem watched_load_keeps (hash : Text) : (s.watched.load hash).Keeps Aside := by
  refine .bind (.ofAct fun app => ?_) fun _ => .bind ?_ fun commands =>
    s.watched.sent_keeps Aside.isPreorder.refl commands
  · rw [ensureIdle_apply]
    exact Aside.isPreorder.refl app
  · refine .focus (.ofAct (R := Dispatcher.SameCalls) ?_) fun desk app h => ⟨rfl, h⟩
    exact s.dispatcher.watched_load_keeps (some hash)

/-- Listing calls no family and leaves the mark alone. -/
theorem watched_pending_keeps : s.watched.pending.Keeps Aside :=
  fun app => ⟨Aside.isPreorder.refl app,
    s.watched.sent_keeps Aside.isPreorder.refl app.desk.pending⟩

end Aside

/-! ## Entering an endpoint -/

/-- The dispatch that a request asks for. -/
inductive Asks (s : Service ρ) (r : Request) : Task (Desk ρ) Nat → Prop where
  | run (h : Address.ofRequest r = .endpoint .run) (hash : Text) :
      Asks s r (s.dispatcher.runFragment (some hash))
  | runPending (h : Address.ofRequest r = .endpoint .runPending) : Asks s r s.dispatcher.runOnce

/-- What follows a dispatch: it does nothing beside the dispatch that could hold anything up. -/
def Follows {α : Type} (after : Except Failure Nat → Task (App (Watched ρ)) α) : Prop :=
  ∀ x, (after x).Prompt ∧ (after x).Keeps Aside

/-- What is left of a request whose dispatch has begun and has not ended. -/
def InFlight (s : Service (Watched ρ)) (r : Request) (left : Task (App (Watched ρ)) Reply) :
    Prop :=
  ∃ t u after, Asks s r t ∧ t.Leaves u ∧ u.isDone = false ∧ Follows after
    ∧ left = closing u after

/-- A dispatch that is in flight has not ended. -/
theorem InFlight.isDone {s : Service (Watched ρ)} {r : Request}
    {left : Task (App (Watched ρ)) Reply} (h : InFlight s r left) : left.isDone = false := by
  obtain ⟨t, u, after, -, -, -, -, rfl⟩ := h
  exact closing_isDone u after

/-- A request is answered and has made no calls. -/
def Settles (app : App (Watched ρ)) (p : Task.Progress (App (Watched ρ)) Reply) : Prop :=
  p.task.isDone = true ∧ Aside app p.state

/-- A dispatch that a request asks for has come some way. -/
def Dispatches (s : Service (Watched ρ)) (r : Request) (app : App (Watched ρ))
    (p : Task.Progress (App (Watched ρ)) Reply) : Prop :=
  (∃ t, Asks s r t) ∧ AddsCalls app p.state
    ∧ (p.task.isDone = true ∧ p.state.isBusy = false
      ∨ InFlight s r p.task ∧ p.state.isBusy = true)

/-- What comes of a request that enters its endpoint: an answer, or a dispatch if no other is under
way. -/
def Enters (s : Service (Watched ρ)) (r : Request) (app : App (Watched ρ))
    (p : Task.Progress (App (Watched ρ)) Reply) : Prop :=
  Settles app p ∨ app.isBusy = false ∧ Dispatches s r app p

/-- What has happened beside dispatches before makes no difference. -/
theorem Enters.behind {s : Service (Watched ρ)} {r : Request} {app app' : App (Watched ρ)}
    (happ : Aside app app') {p : Task.Progress (App (Watched ρ)) Reply} (h : Enters s r app' p)
    (trace : List Signal) : Enters s r app (p.behind trace false) := by
  rcases h with ⟨hdone, haside⟩ | ⟨hidle, hasks, hcalls, hend⟩
  · exact .inl ⟨hdone, Aside.isPreorder.trans happ haside⟩
  · exact .inr ⟨happ.1 ▸ hidle, hasks,
      Watched.AddsCalls.isPreorder.trans happ.addsCalls hcalls, hend⟩

section Enter

variable {s : Service ρ} {r : Request}

/-- A request that is never suspended and leaves the desk aside is settled at once. -/
theorem settles_of_prompt {t : Task (App (Watched ρ)) Reply} (ht : t.Prompt) (hk : t.Keeps Aside)
    (isOpen : Text → Bool) (reach : Task.Reach) (app : App (Watched ρ)) :
    Settles app (t.work isOpen reach app) := by
  refine ⟨?_, (hk.work Aside.isPreorder isOpen reach app).1⟩
  rw [ht.work_eq]
  rfl

/-- A dispatch only adds to the calls that have been made. -/
theorem asks_keeps {t : Task (Desk (Watched ρ)) Nat} (h : Asks s.watched r t) :
    t.Keeps Dispatcher.AddsCallsOn := by
  cases h with
  | run _ hash => exact s.dispatcher.watched_runFragment_keeps (some hash)
  | runPending _ => exact s.dispatcher.watched_runOnce_keeps

/-- What has been done on the desk says how far the dispatch has come. -/
theorem dispatches_closed {t : Task (Desk (Watched ρ)) Nat}
    {after : Except Failure Nat → Task (App (Watched ρ)) Reply} {app : App (Watched ρ)}
    {p : Task.Progress (Desk (Watched ρ)) Nat} (hasks : Asks s.watched r t)
    (hafter : Follows after) (hbusy : app.isBusy = true)
    (hcalls : Dispatcher.AddsCallsOn app.desk p.state) (hleft : t.Leaves p.task)
    (isOpen : Text → Bool) (reach : Task.Reach) :
    Dispatches s.watched r app (closed isOpen reach after app p) := by
  cases hdone : p.task.isDone with
  | false =>
    -- suspended within the dispatch: the mark stays
    rw [closed_of_left hdone]
    exact ⟨⟨t, hasks⟩, hcalls, .inr ⟨⟨t, p.task, after, hasks, hleft, hdone, hafter, rfl⟩, hbusy⟩⟩
  | true =>
    -- the dispatch has ended: the mark is taken away, and what follows is over in the same turn
    obtain ⟨x, hx⟩ := Task.eq_done_of_isDone hdone
    rw [closed, hx]
    obtain ⟨hanswered, haside⟩ := settles_of_prompt (hafter x).1 (hafter x).2 isOpen
      (reach.after p.cameToGate) (mark false { app with desk := p.state })
    exact ⟨⟨t, hasks⟩, Watched.AddsCalls.isPreorder.trans hcalls haside.addsCalls,
      .inl ⟨hanswered, haside.1⟩⟩

/-- A dispatch begins only while no other is under way. -/
theorem exclusively_enters {t : Task (Desk (Watched ρ)) Nat}
    {after : Except Failure Nat → Task (App (Watched ρ)) Reply} (hasks : Asks s.watched r t)
    (hafter : Follows after) (isOpen : Text → Bool) (reach : Task.Reach)
    (app : App (Watched ρ)) :
    Enters s.watched r app
      (((exclusively (App.onDesk t)).attempt.bind after).work isOpen reach app) := by
  rw [exclusively_work]
  cases hbusy : app.isBusy with
  | true => exact .inl (settles_of_prompt (hafter _).1 (hafter _).2 isOpen reach app)
  | false =>
    refine .inr ⟨hbusy, ?_⟩
    have hcalls := ((asks_keeps hasks).work Dispatcher.AddsCallsOn.isPreorder isOpen reach
      app.desk).1
    have hmark : (mark true app).isBusy = true := rfl
    simp only [Bool.false_eq_true, if_false, closing_work]
    exact dispatches_closed hasks hafter hmark hcalls (.work isOpen reach app.desk) isOpen reach

/-- To make a reply of the end is no matter of the desk. -/
theorem conclude_keeps_aside (x : Except Failure Response) : (s.watched.conclude r x).Keeps Aside :=
  s.watched.conclude_keeps Aside.isPreorder.refl r x

/-- An endpoint that begins no dispatch is left in the turn in which it is entered. -/
theorem settles_of_entry {t : Task (App (Watched ρ)) Response} (ht : t.Prompt)
    (hk : t.Keeps Aside) (isOpen : Text → Bool) (reach : Task.Reach) (app : App (Watched ρ)) :
    Settles app ((t.attempt.bind (s.watched.conclude r)).work isOpen reach app) :=
  settles_of_prompt (ht.attempt.bind (s.watched.conclude_prompt r))
    (hk.attempt.bind conclude_keeps_aside) isOpen reach app

/-- An endpoint with a body is settled at once, whatever the body is like. -/
theorem settles_of_onBody {act : Text → Task (App (Watched ρ)) Json}
    (hact : ∀ hash, (act hash).Prompt) (hk : ∀ hash, (act hash).Keeps Aside)
    (isOpen : Text → Bool) (reach : Task.Reach) (app : App (Watched ρ)) :
    Settles app
      (((s.watched.onBody r act).attempt.bind (s.watched.conclude r)).work isOpen reach app) := by
  refine settles_of_entry ?_ ?_ isOpen reach app
  · exact .bind (.ofAct _) fun _ => onFragment_prompt fun hash _ => hact hash
  · exact .bind (.ofAct fun _ => ⟨rfl, rfl⟩) fun _ => onFragment_keeps fun hash _ => hk hash

/-- An endpoint that begins a dispatch does so only while no other is under way. -/
theorem answering_enters {t : Task (Desk (Watched ρ)) Nat} {f : Nat → Task (App (Watched ρ)) Json}
    (hasks : Asks s.watched r t) (hf : ∀ n, (f n).Prompt) (hf' : ∀ n, (f n).Keeps Aside)
    (isOpen : Text → Bool) (reach : Task.Reach) (app : App (Watched ρ)) :
    Enters s.watched r app (((answering ((exclusively (App.onDesk t)).bind f)).attempt.bind
      (s.watched.conclude r)).work isOpen reach app) := by
  rw [answering, Task.bind_assoc, Task.attempt_bind_bind]
  refine exclusively_enters hasks (fun x => ⟨?_, ?_⟩) isOpen reach app
  · exact .caught (fun n => answering_prompt (hf n)) (s.watched.conclude_prompt r) x
  · exact .caught (fun n => answering_keeps (hf' n)) conclude_keeps_aside x

/-- A run of a fragment begins a dispatch if it gets as far as that, and it is settled at once
otherwise. -/
theorem run_enters (h : Address.ofRequest r = .endpoint .run) (isOpen : Text → Bool)
    (reach : Task.Reach) (app : App (Watched ρ)) :
    Enters s.watched r app
      (((s.watched.onBody r s.watched.run).attempt.bind (s.watched.conclude r)).work isOpen reach
        app) := by
  have haside : Aside app
      { app with settings := ((s.watched.framework.body r).fragment app.settings).state } :=
    ⟨rfl, rfl⟩
  rw [onBody_work]
  -- reading the fragment may build the settings, but touches nothing else
  refine .behind haside ?_ _
  rcases ((s.watched.framework.body r).fragment app.settings).result with e | (refusal | hash)
  · exact .inl (settles_of_prompt (s.watched.conclude_prompt r (.error e))
      (conclude_keeps_aside (.error e)) isOpen reach _)
  · have hprompt : (onFragment r s.watched.run (.error refusal)).Prompt :=
      onFragment_prompt fun _ h => nomatch h
    have hkeeps : (onFragment r s.watched.run (.error refusal)).Keeps Aside :=
      onFragment_keeps fun _ h => nomatch h
    exact .inl (settles_of_entry hprompt hkeeps isOpen reach _)
  · obtain ⟨f, hf, hf', hrun⟩ := s.watched.run_eq hash
    rw [Task.caught_ok, onFragment_ok, hrun]
    exact answering_enters (.run h hash) hf (hf' Aside) isOpen reach _

/-- **A request that enters its endpoint** is answered in the same turn, or begins a dispatch while
no other is under way. -/
theorem enter (s : Service ρ) (r : Request) (isOpen : Text → Bool) (reach : Task.Reach)
    (app : App (Watched ρ)) :
    Enters s.watched r app ((s.watched.respond r).resume isOpen reach app) := by
  by_cases h : ∃ e, Address.ofRequest r = .endpoint e
  · obtain ⟨e, he⟩ := h
    rw [s.watched.resume_respond he]
    cases e with
    | health =>
      exact .inl (settles_of_entry (.ofAct _) (.ofAct fun app => Aside.isPreorder.refl app)
        isOpen reach app)
    | parse =>
      exact .inl (settles_of_onBody s.watched.parse_prompt s.watched_parse_keeps isOpen reach app)
    | pending =>
      exact .inl (settles_of_entry (answering_prompt s.watched.pending_prompt)
        (answering_keeps s.watched_pending_keeps) isOpen reach app)
    | load =>
      exact .inl (settles_of_onBody s.watched.load_prompt s.watched_load_keeps isOpen reach app)
    | runPending =>
      obtain ⟨f, hf, hf', hrun⟩ := s.watched.runPending_eq
      rw [entry, hrun]
      exact answering_enters (.runPending he) hf (hf' Aside) isOpen reach app
    | run => exact run_enters he isOpen reach app
  · obtain ⟨reply, hreply⟩ := s.watched.respond_eq_done (r := r) fun e he => h ⟨e, he⟩
    rw [hreply]
    exact .inl ⟨rfl, Aside.isPreorder.refl app⟩

/-- **A dispatch that goes on stays the one under way until it has ended.** -/
theorem goOn {left : Task (App (Watched ρ)) Reply} (h : InFlight s.watched r left)
    (isOpen : Text → Bool) (reach : Task.Reach) {app : App (Watched ρ)}
    (hbusy : app.isBusy = true) :
    Dispatches s.watched r app (left.resume isOpen reach app) := by
  obtain ⟨t, u, after, hasks, hleft, hdone, hafter, rfl⟩ := h
  have hcalls := ((hleft.keeps Dispatcher.AddsCallsOn.isPreorder (asks_keeps hasks)).resume
    Dispatcher.AddsCallsOn.isPreorder isOpen reach app.desk).1
  rw [closing_resume hdone]
  exact dispatches_closed hasks hafter hbusy hcalls (.resume hleft isOpen reach app.desk) isOpen
    reach

end Enter

/-! ## Requests that are refused -/

/-- What may not happen beside a dispatch: another dispatch, and the loading of new commands. -/
def Guarded (s : Service ρ) (r : Request) (store : Settings.Store) : Prop :=
  Address.ofRequest r = .endpoint .runPending
    ∨ (Address.ofRequest r = .endpoint .run ∨ Address.ofRequest r = .endpoint .load)
      ∧ ∃ hash, ((s.framework.body r).fragment store).result = .ok (.ok hash)

/-- The data of a refusal. -/
def conflict (now : Text) : Json :=
  CommandError.envelopeOf "CONCURRENCY_CONFLICT" busyMessage .conflict .warning [
    ("timestamp", .str now),
    ("context", .obj [("method", .null), ("command", .null), ("position", .null)])]

/-- The reply to a request that is refused. -/
def conflictReply (s : Service ρ) (r : Request) : Reply :=
  ⟨s.framework.share r (Response.ofData 409 (conflict s.now)), none⟩

/-- The refusal of a second dispatch can always be written. -/
theorem written_conflict {f : Framework} (hf : f.Lawful) {now : Text} (h : now.isScalar = true) :
    f.written 409 (conflict now) = .ok (Response.ofData 409 (conflict now)) := by
  have htext : (Json.write Json.Style.compact (conflict now)).isScalar = true := by
    have hname (name : String) : (Json.Style.compact.string (Text.ofString name)).isScalar = true :=
      Json.Style.compact.string_isScalar (Text.isScalar_ofString name)
    simp only [conflict, CommandError.envelopeOf, Json.write, Json.writeMembers,
      Text.isScalar_append, Text.isScalar_cons_char, Json.Style.string_isScalar _ h, busyMessage,
      Category.name, Severity.name, hname]
    rfl
  rw [Framework.written, (hf.writes _).mpr htext]

/-- Loading new commands beside a dispatch fails before anything is done. -/
theorem load_work_of_busy (s : Service ρ) (r : Request) (hash : Text) (app : App ρ)
    (hbusy : app.isBusy = true) (isOpen : Text → Bool) (reach : Task.Reach) :
    ((answering (s.load hash)).attempt.bind (s.conclude r)).work isOpen reach app
      = (s.conclude r (.error busy)).work isOpen reach app := by
  show ((((Task.ofAct ensureIdle).bind _).bind _).attempt.bind _).work isOpen reach app = _
  rw [Task.bind_assoc, Task.attempt_bind_bind, Task.work_ofAct_attempt_bind, ensureIdle_apply,
    if_pos hbusy, Task.caught, Task.Progress.behind_nothing]

section Refused

variable (s : Service ρ) (hs : s.framework.Lawful) (hnow : s.now.isScalar = true) {r : Request}
  {app : App ρ} (isOpen : Text → Bool) (reach : Task.Reach)

include hs hnow

/-- A second dispatch is told so. -/
theorem conclude_busy_work (r : Request) (app : App ρ) :
    ∃ trace, (s.conclude r (.error busy)).work isOpen reach app
      = ⟨.done (.ok (s.conflictReply r)), app, trace, false⟩ := by
  have hrecover : s.recover r (.error busy)
      = (Task.signal _).bind fun _ =>
        Task.ofAct (Act.ofExcept (s.framework.written 409 (conflict s.now))) :=
    rfl
  rw [conclude, hrecover, written_conflict hs hnow]
  exact ⟨_, rfl⟩

/-- An endpoint that would begin a dispatch beside another one is told that it may not. -/
theorem answering_refused (t : Task (Desk ρ) Nat) (f : Nat → Task (App ρ) Json)
    (hbusy : app.isBusy = true) :
    ∃ trace, ((answering ((exclusively (App.onDesk t)).bind f)).attempt.bind
        (s.conclude r)).work isOpen reach app
      = ⟨.done (.ok (s.conflictReply r)), app, trace, false⟩ := by
  rw [answering, Task.bind_assoc, Task.attempt_bind_bind, exclusively_work, if_pos hbusy]
  exact s.conclude_busy_work hs hnow isOpen reach r app

/-- To load commands beside a dispatch is refused like a second dispatch. -/
theorem load_refused (hash : Text) (hbusy : app.isBusy = true) :
    ∃ trace, ((answering (s.load hash)).attempt.bind (s.conclude r)).work isOpen reach app
      = ⟨.done (.ok (s.conflictReply r)), app, trace, false⟩ := by
  rw [s.load_work_of_busy r hash app hbusy]
  exact s.conclude_busy_work hs hnow isOpen reach r app

/-- **What may not happen beside a dispatch is refused**: nothing but the settings, which may have
to be built, is touched. -/
theorem enter_refused (h : s.Guarded r app.settings) (hbusy : app.isBusy = true) :
    ∃ settings, ((s.respond r).resume isOpen reach app).task = .done (.ok (s.conflictReply r))
      ∧ ((s.respond r).resume isOpen reach app).state = { app with settings } := by
  -- reading the body leaves the mark of the dispatch under way
  have hread : ({ app with settings := ((s.framework.body r).fragment app.settings).state } :
      App ρ).isBusy = true := hbusy
  rcases h with h | ⟨h | h, hash, hhash⟩
  · obtain ⟨f, -, -, hrun⟩ := s.runPending_eq
    obtain ⟨trace, hwork⟩ :=
      s.answering_refused hs hnow (r := r) isOpen reach s.dispatcher.runOnce f hbusy
    rw [s.resume_respond h, entry, hrun, hwork]
    exact ⟨app.settings, rfl, rfl⟩
  · obtain ⟨f, -, -, hrun⟩ := s.run_eq hash
    obtain ⟨trace, hwork⟩ :=
      s.answering_refused hs hnow (r := r) isOpen reach (s.dispatcher.runFragment (some hash)) f
        hread
    rw [s.resume_respond h, entry, onBody_work, hhash, Task.caught_ok, onFragment_ok, hrun, hwork]
    exact ⟨_, rfl, rfl⟩
  · obtain ⟨trace, hwork⟩ := s.load_refused hs hnow (r := r) isOpen reach hash hread
    rw [s.resume_respond h, entry, onBody_work, hhash, Task.caught_ok, onFragment_ok, hwork]
    exact ⟨_, rfl, rfl⟩

end Refused

end Service

end Deeplink.Http

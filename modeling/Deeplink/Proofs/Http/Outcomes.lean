import Deeplink.Proofs.Host.Course
import Deeplink.Proofs.Http.Answers
import Deeplink.Proofs.Http.Shadows

/-!
# Answers and effects

What a request that runs commands is answered says which handlers have been called: all of them,
none, or those up to the one that has failed. A success reports how many commands have been
executed, and everything else is an envelope with the status of its error (specification, 6).

- `Http.Service.noted`: the service of the standard families, with its handlers noted.
- `Http.Service.Begins`: a request begins to run commands.
- `Http.Service.course_of_request`: it ends with what becomes of a course of these commands.
- `Http.Service.Tells`: the envelope of an error is sent, or an internal error in its stead.
- `Http.Service.AccountsFor`: which answers go with which calls.
- `Http.Service.run_answered`: every answer to a request that runs commands does so.
-/

namespace Deeplink.Http.Service

open Dispatcher (place rejection breakdown)
open Host (Permits refusalOf Runs Completed Course events)

variable {η μ : Type}

/-! ## Services -/

/-- The service of the standard families. -/
def standard (call : Host.Call η μ) (s : Settings) (framework : Framework) (now : Text) :
    Service (Host η μ) :=
  ⟨Host.standard call s none, framework, now⟩

/-- The same service with its handlers noted. -/
def noted (call : Host.Call η μ) (s : Settings) (framework : Framework) (now : Text) :
    Service (Host η (Host.Noted η μ)) :=
  ⟨Host.noted call s none, framework, now⟩

/-- Noting the handlers does not change any answer. -/
theorem noted_shadows (call : Host.Call η μ) (s : Settings) (framework : Framework) (now : Text) :
    (noted call s framework now).Shadows Host.forget (standard call s framework now) where
  dispatcher := Host.noted_shadows call s none
  framework := rfl
  now := rfl

/-- A request that enters its endpoint while no dispatch is under way begins to run commands: those
of the fragment that its body gives, or the pending ones. -/
inductive Begins {ρ : Type} (service : Service ρ) (r : Request) (app : App ρ) :
    List Command → Prop where
  | run (hr : Address.ofRequest r = .endpoint .run) {hash : Text}
      (h : service.Takes r app hash) :
      Begins service r app (Fragment.commands service.dispatcher.methods (some hash))
  | runPending (hr : Address.ofRequest r = .endpoint .runPending) (hidle : app.isBusy = false) :
      Begins service r app app.desk.pending

/-! ## Courses of requests -/

section Course

variable {call : Host.Call η μ} {s : Settings} {framework : Framework} {now : Text}
  {others : App (Host η (Host.Noted η μ)) → App (Host η (Host.Noted η μ)) → Prop}
  {app app' : App (Host η (Host.Noted η μ))}

/-- What others do beside a dispatch, they do on the desk. -/
theorem ends_onDesk (hquiet : ∀ {app app'}, others app app' → Host.Quiet app.desk app'.desk)
    {t : Task (Desk (Host η (Host.Noted η μ))) Nat} {y : Except Failure Nat}
    (h : Task.Ends others (App.onDesk t) app y app') :
    Task.Ends Host.Quiet t app.desk y app'.desk :=
  .of_shadows (.focus App.desk_isPart t) (fun _ _ => hquiet) h

variable (hmethods : s.runMethod ≠ s.routeMethod) (hcall : Host.Behaved call)

include hmethods hcall

theorem course_of_runFragment {hash : Text} {desk desk' : Desk (Host η (Host.Noted η μ))}
    {y : Except Failure Nat}
    (h : Task.Ends Host.Quiet ((Host.noted call s none).runFragment (some hash)) desk y desk') :
    ∃ es, events desk' = events desk ++ es ∧ Course s desk.host
      (Fragment.commands (Host.noted call s none).methods (some hash)) y es := by
  -- without a sink, reading the fragment touches nothing
  have hparse : (Host.noted call s none).parse (some hash) desk.host
      = ⟨.ok (Fragment.commands (Host.noted call s none).methods (some hash)), desk.host,
        (Fragment.diagnostics (Host.noted call s none).methods (some hash)).map fun d =>
          .notice d.notice⟩ :=
    Fragment.parse_logged _ _ _
  have hok : (Desk.onHost ((Host.noted call s none).parse (some hash)) desk).result
      = .ok (Fragment.commands (Host.noted call s none).methods (some hash)) :=
    congrArg Outcome.result hparse
  have hrun := (Task.Ends.ofAct_bind_iff hok).mp h
  rw [Desk.onHost, Act.focus_apply, hparse] at hrun
  exact Host.course_of_run hcall id hmethods hrun

theorem course_of_runOnce {desk desk' : Desk (Host η (Host.Noted η μ))} {y : Except Failure Nat}
    (h : Task.Ends Host.Quiet (Host.noted call s none).runOnce desk y desk') :
    ∃ es, events desk' = events desk ++ es ∧ Course s desk.host desk.pending y es := by
  rw [Dispatcher.runOnce_eq] at h
  rcases h.of_bind with ⟨n, desk₁, hrun, hclear⟩ | ⟨e, rfl, hrun⟩
  · cases hclear with
    | act hdone =>
      cases hdone with
      | done =>
        obtain ⟨es, hes, hcourse⟩ := Host.course_of_run hcall id hmethods hrun.of_get_bind
        exact ⟨es, hes, hcourse⟩
  · exact Host.course_of_run hcall id hmethods hrun.of_get_bind

/-- **A request that runs commands ends with what becomes of their course.** -/
theorem course_of_request (hothers : IsPreorder others)
    (hquiet : ∀ {app app'}, others app app' → Host.Quiet app.desk app'.desk) {r : Request}
    {cs : List Command} (hbegins : (noted call s framework now).Begins r app cs)
    {isOpen : Text → Bool} {reach : Task.Reach} {x : Except Failure Reply}
    (hends : Task.Ends others
      (((noted call s framework now).respond r).resume isOpen reach app).task
      (((noted call s framework now).respond r).resume isOpen reach app).state x app') :
    ∃ y es, events app'.desk = events app.desk ++ es ∧ Course s app.desk.host cs y es
      ∧ x = (noted call s framework now).reply r y := by
  cases hbegins with
  | @run hr hash htakes =>
    rw [resume_respond _ hr] at hends
    obtain ⟨y, app₁, hrun, rfl, rfl⟩ :=
      (run_ends_iff _ htakes).mp (.work hothers isOpen reach hends)
    obtain ⟨es, hes, hcourse⟩ := course_of_runFragment hmethods hcall (ends_onDesk hquiet hrun)
    exact ⟨y, es, hes, hcourse, rfl⟩
  | runPending hr hidle =>
    rw [resume_respond _ hr] at hends
    obtain ⟨y, app₁, hrun, rfl, rfl⟩ :=
      (runPending_ends_iff _ hidle).mp (.work hothers isOpen reach hends)
    obtain ⟨es, hes, hcourse⟩ := course_of_runOnce hmethods hcall (ends_onDesk hquiet hrun)
    exact ⟨y, es, hes, hcourse, rfl⟩

end Course

/-! ## Outcomes -/

/-- The envelope of an error at a command is sent with the status of the error. If the method or the
name of the command has a surrogate, the answer is an internal error in its stead. -/
structure Tells {ρ : Type} (service : Service ρ) (r : Request) (c : Command) (error : CommandError)
    (reply : Reply) : Prop where
  sent : c.method.isScalar = true → c.name.isScalar = true →
    reply = ⟨service.framework.share r (Response.ofData error.cause.status.toNat
      (error.envelope service.now)), none⟩
  unsent : ¬ (c.method.isScalar = true ∧ c.name.isScalar = true) →
    ∃ fault, reply = internalReply (Failure.of (.unwritable fault))

/-- What a request that runs commands is answered, by the calls of their handlers. -/
structure AccountsFor {ρ : Type} (service : Service ρ) (s : Settings) (h : Host η μ) (r : Request)
    (cs : List Command) (es : List (Host.Event η)) (reply : Reply) : Prop where
  /-- The answer is a success exactly if every command may run, every route is registered, and no
  handler has failed. -/
  succeeds : reply.response.status = 200 ↔ (∀ c ∈ cs, Permits s h.registry c)
    ∧ (∀ c ∈ cs, c.method = s.routeMethod → h.routes.isRegistered c.name = true)
    ∧ ∀ i e, Host.Event.ended i (.error e) ∉ es
  /-- Then it reports how many commands there are, and the handlers of all of them have been called
  in order. -/
  reports : reply.response.status = 200 →
    reply.response.content = .data (RunReport.mk cs.length).toJson ∧ Completed s h cs es
  /-- If a command may not run, the answer tells of the first such command, and no handler has been
  called. -/
  refuses : (∃ c ∈ cs, ¬ Permits s h.registry c) → es = []
    ∧ ∃ before c after, cs = before ++ c :: after ∧ (∀ b ∈ before, Permits s h.registry b)
      ∧ ¬ Permits s h.registry c
      ∧ service.Tells r c ⟨.rejected (refusalOf s c), place c before.length⟩ reply
  /-- Otherwise, if it is no success, the answer tells of the first command that has failed: its
  handler has, or it is a route that is not registered. The commands before it have been completed,
  and nothing has been called after it. -/
  fails : (∀ c ∈ cs, Permits s h.registry c) → reply.response.status ≠ 200 →
    ∃ before c after e es₁ es₂, cs = before ++ c :: after ∧ es = es₁ ++ es₂
      ∧ Completed s h before es₁ ∧ Runs s h c (.error e) es₂
      ∧ service.Tells r c ⟨.execution c.name e.message, place c before.length⟩ reply

section Accounts

variable {ρ : Type} {service : Service ρ} {s : Settings} {h : Host η μ} {r : Request}
  {cs : List Command} {c : Command} {es : List (Host.Event η)} {reply : Reply}

/-- What tells of an error has its status, or that of an internal error. -/
theorem Tells.status {error : CommandError} (h : service.Tells r c error reply) :
    reply.response.status = error.cause.status.toNat ∨ reply.response.status = 500 := by
  by_cases hscalar : c.method.isScalar = true ∧ c.name.isScalar = true
  · rw [h.sent hscalar.1 hscalar.2]
    exact .inl rfl
  · obtain ⟨fault, rfl⟩ := h.unsent hscalar
    exact .inr rfl

/-- If the status of the error is no success, then what tells of it is none. -/
theorem Tells.not_success {error : CommandError} (h : service.Tells r c error reply)
    (herror : error.cause.status.toNat ≠ 200) : reply.response.status ≠ 200 := by
  rcases h.status with hstatus | hstatus
  · rw [hstatus]
    exact herror
  · rw [hstatus]
    decide

/-- All commands have been completed, and that is reported. -/
theorem accounts_of_succeeded (hpermits : ∀ c ∈ cs, Permits s h.registry c)
    (hcs : Completed s h cs es) :
    service.AccountsFor s h r cs es ⟨service.framework.share r (Response.ofData 200
      (RunReport.mk cs.length).toJson), none⟩ := by
  refine ⟨?_, fun _ => ⟨rfl, hcs⟩, ?_, fun _ hstatus => absurd rfl hstatus⟩
  · constructor
    · exact fun _ => ⟨hpermits, hcs.isRegistered, hcs.not_failed⟩
    · exact fun _ => rfl
  · rintro ⟨c, hc, hnot⟩
    exact absurd (hpermits c hc) hnot

section Sent

variable (hservice : service.framework.Lawful) (hnow : service.now.isScalar = true)

include hservice hnow

/-- The reply to an error at a command tells of it. -/
theorem tells_errorReply (cause : CommandError.Cause) (k : Nat)
    (hcode : cause.code.isScalar = true)
    (hmessage : c.name.isScalar = true → cause.message.isScalar = true) :
    service.Tells r c ⟨cause, place c k⟩ (service.errorReply r ⟨cause, place c k⟩) where
  sent := fun hmethod hname =>
    errorReply_of_scalar service hservice r hnow hcode (hmessage hname) hmethod hname
  unsent := errorReply_of_surrogate service hservice r hnow hcode

/-- Nothing has been called, and the answer tells of the first command that may not run. -/
theorem accounts_of_refused {before after : List Command} (hcs : cs = before ++ c :: after)
    (hbefore : ∀ b ∈ before, Permits s h.registry b) (hc : ¬ Permits s h.registry c) :
    service.AccountsFor s h r cs []
      (service.errorReply r ⟨.rejected (refusalOf s c), place c before.length⟩) := by
  have hmessage (hname : c.name.isScalar = true) :
      (CommandError.Cause.rejected (refusalOf s c)).message.isScalar = true := by
    unfold refusalOf
    split <;> simp only [CommandError.Cause.message, Refusal.message, Text.isScalar_append,
      Text.isScalar_ofString, hname, Bool.and_self]
  have htells := tells_errorReply (r := r) hservice hnow (.rejected (refusalOf s c)) before.length
    rfl hmessage
  have hmem : c ∈ cs := by
    rw [hcs]
    simp
  have hstatus : (service.errorReply r
      ⟨.rejected (refusalOf s c), place c before.length⟩).response.status ≠ 200 :=
    htells.not_success (by decide : 400 ≠ 200)
  refine ⟨?_, fun h => absurd h hstatus, fun _ => ⟨rfl, ?_⟩, ?_⟩
  · constructor
    · exact fun h => absurd h hstatus
    · exact fun h => absurd (h.1 c hmem) hc
  · exact ⟨before, c, after, hcs, hbefore, hc, htells⟩
  · exact fun h => absurd (h c hmem) hc

/-- Some commands have been completed, and the answer tells of the one that has failed. -/
theorem accounts_of_failed {before after : List Command} {e : Failure}
    {es₁ es₂ : List (Host.Event η)} (hpermits : ∀ c ∈ cs, Permits s h.registry c)
    (hcs : cs = before ++ c :: after) (hbefore : Completed s h before es₁)
    (hc : Runs s h c (.error e) es₂) (he : c.name.isScalar = true → e.message.isScalar = true) :
    service.AccountsFor s h r cs (es₁ ++ es₂)
      (service.errorReply r ⟨.execution c.name e.message, place c before.length⟩) := by
  have hmessage (hname : c.name.isScalar = true) :
      (CommandError.Cause.execution c.name e.message).message.isScalar = true := by
    simp only [CommandError.Cause.message, Text.isScalar_append, Text.isScalar_ofString, hname,
      he hname, Bool.and_self]
  have htells := tells_errorReply (r := r) hservice hnow (.execution c.name e.message) before.length
    rfl hmessage
  have hmem : c ∈ cs := by
    rw [hcs]
    simp
  have hstatus : (service.errorReply r
      ⟨.execution c.name e.message, place c before.length⟩).response.status ≠ 200 :=
    htells.not_success (by decide : 502 ≠ 200)
  refine ⟨?_, fun h => absurd h hstatus, ?_, fun _ _ => ?_⟩
  · constructor
    · exact fun h => absurd h hstatus
    · rintro ⟨-, hroutes, hnone⟩
      rcases hc.failed with ⟨i, hi⟩ | ⟨hroute, hunregistered⟩
      · exact absurd (List.mem_append_right es₁ hi) (hnone i e)
      · have hregistered := hroutes c hmem hroute
        rw [hunregistered] at hregistered
        cases hregistered
  · rintro ⟨c', hc', hnot⟩
    exact absurd (hpermits c' hc') hnot
  · exact ⟨before, c, after, e, es₁, es₂, hcs, rfl, hbefore, hc, htells⟩

/-- Each course has its answer. -/
theorem accounts_of_course {y : Except Failure Nat} (hcourse : Course s h cs y es) :
    ∃ reply, service.reply r y = .ok reply ∧ service.AccountsFor s h r cs es reply := by
  cases hcourse with
  | refused hcs hbefore hc => exact ⟨_, rfl, accounts_of_refused hservice hnow hcs hbefore hc⟩
  | failed hpermits hcs hbefore hc he =>
    exact ⟨_, rfl, accounts_of_failed hservice hnow hpermits hcs hbefore hc he⟩
  | succeeded hpermits hcs => exact ⟨_, rfl, accounts_of_succeeded hpermits hcs⟩

end Sent

end Accounts

/-- **The answer to a request that runs commands says what has been done.** The request is taken as
far as the gates allow, and others may go on while it is suspended, as long as they leave alone what
is registered and call no handlers of this service. -/
theorem run_answered (call : Host.Call η μ) (s : Settings) (framework : Framework) (now : Text)
    (hmethods : s.runMethod ≠ s.routeMethod) (hcall : Host.Behaved call)
    (hframework : framework.Lawful) (hnow : now.isScalar = true) :
    let service := noted call s framework now
    (∀ r, Task.Shadows (App.seen Host.forget) (service.respond r)
        ((standard call s framework now).respond r))
      ∧ ∀ others, IsPreorder others →
        (∀ app app', others app app' → Host.Quiet app.desk app'.desk) →
        ∀ r app cs, service.Begins r app cs → ∀ isOpen reach,
          let p := (service.respond r).resume isOpen reach app
          (∃ x app', Task.Ends others p.task p.state x app')
            ∧ ∀ x app', Task.Ends others p.task p.state x app' →
              ∃ reply es, x = .ok reply ∧ events app'.desk = events app.desk ++ es
                ∧ service.AccountsFor s app.desk.host r cs es reply := by
  intro service
  refine ⟨(noted_shadows call s framework now).respond, ?_⟩
  intro others hothers hquiet r app cs hbegins isOpen reach p
  refine ⟨⟨_, _, .whole hothers p.task p.state⟩, fun x app' hends => ?_⟩
  obtain ⟨y, es, hes, hcourse, rfl⟩ := course_of_request hmethods hcall hothers
    (fun {app app'} => hquiet app app') hbegins hends
  have hservice : service.framework.Lawful := hframework
  have hnow : service.now.isScalar = true := hnow
  obtain ⟨reply, hreply, haccounts⟩ := accounts_of_course (r := r) hservice hnow hcourse
  exact ⟨reply, es, hreply, hes, haccounts⟩

/-- A command whose name is a surrogate. -/
def surrogateCommand : Command := ⟨"e:run", [.surrogate 0], []⟩

/-- The fragment that gives it. -/
def surrogateFragment : Text := Text.ofString "#e:run:" ++ [.surrogate 0]

/-- A request to run this command. -/
def surrogateRun : Request :=
  { surrogateRequest with
    path := "/api/v1/hash-commands/run"
    body := "\x7b\"hash\":\"#e:run:\\ud800\"\x7d".toUTF8.toList }

/-- An application without any commands or routes. -/
def emptyApp : App (Host Unit (Host.Noted Unit Unit)) :=
  { desk := ⟨[], { memory := { memory := () } }⟩ }

/-- The service of an application whose handlers do nothing, with its handlers noted. -/
def idleNoted : Service (Host Unit (Host.Noted Unit Unit)) :=
  noted Host.idle .defaults (.standard ⟨[]⟩) []

/-- The command is not registered, but the answer is an internal error, because the refusal cannot
be sent. -/
theorem run_surrogate : Settings.defaults.runMethod ≠ Settings.defaults.routeMethod
    ∧ Host.Behaved Host.idle ∧ idleNoted.framework.Lawful ∧ idleNoted.now.isScalar = true
    ∧ idleNoted.Begins surrogateRun emptyApp [surrogateCommand]
    ∧ ¬ Permits .defaults emptyApp.desk.host.registry surrogateCommand
    ∧ ∀ isOpen reach,
      let p := (idleNoted.respond surrogateRun).resume isOpen reach emptyApp
      ∃ reply app', Task.Ends Eq p.task p.state (.ok reply) app'
        ∧ reply.response.status = 500 := by
  have hmethods : Settings.defaults.runMethod ≠ Settings.defaults.routeMethod := by decide
  have hcall : Host.Behaved (η := Unit) (μ := Unit) Host.idle :=
    { tables := fun _ _ => trivial
      failures := fun _ _ => trivial }
  have hr : Address.ofRequest surrogateRun = .endpoint .run := by decide +kernel
  have htakes : idleNoted.Takes surrogateRun emptyApp surrogateFragment := ⟨rfl, by decide +kernel⟩
  have hcommands : Fragment.commands idleNoted.dispatcher.methods
      (some surrogateFragment) = [surrogateCommand] := rfl
  have hbegins : idleNoted.Begins surrogateRun emptyApp
      [surrogateCommand] := by
    rw [← hcommands]
    exact .run hr htakes
  have hnot : ¬ Permits .defaults emptyApp.desk.host.registry surrogateCommand := by
    rintro (hroute | ⟨-, hsafe⟩)
    · exact absurd hroute (by decide)
    · cases hsafe
  have hframework : idleNoted.framework.Lawful := Framework.standard_lawful ⟨[]⟩
  refine ⟨hmethods, hcall, hframework, rfl, hbegins, hnot, fun isOpen reach => ?_⟩
  have heq : IsPreorder (Eq (α := App (Host Unit (Host.Noted Unit Unit)))) :=
    { refl := fun _ => rfl
      trans := Eq.trans }
  have hquiet : ∀ app app' : App (Host Unit (Host.Noted Unit Unit)), app = app' →
      Host.Quiet app.desk app'.desk := by
    rintro app _ rfl
    exact Host.Quiet.isPreorder.refl app.desk
  obtain ⟨-, hanswered⟩ :=
    run_answered Host.idle .defaults (.standard ⟨[]⟩) [] hmethods hcall hframework rfl
  obtain ⟨⟨x, app', hends⟩, haccounts⟩ :=
    hanswered Eq heq hquiet surrogateRun emptyApp [surrogateCommand] hbegins isOpen reach
  obtain ⟨reply, es, rfl, -, haccount⟩ := haccounts x app' hends
  refine ⟨reply, app', hends, ?_⟩
  obtain ⟨-, before, c, after, hcs, -, -, htells⟩ :=
    haccount.refuses ⟨surrogateCommand, by simp, hnot⟩
  -- there is only this one command
  have hc : c = surrogateCommand := by
    have hmem : c ∈ [surrogateCommand] := by
      rw [hcs]
      simp
    exact List.mem_singleton.mp hmem
  subst hc
  obtain ⟨fault, rfl⟩ := htells.unsent (by decide)
  rfl

end Deeplink.Http.Service

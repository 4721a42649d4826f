import Deeplink.Proofs.Host.Hosted
import Deeplink.Proofs.Http.Outcomes
import Deeplink.Proofs.Http.Reports

/-!
# Two ways to run a fragment

The commands of a fragment can be run at once, or they can be loaded first and then be run as the
pending ones. Both ways come to the same, as long as the handlers do not reach what is pending.
There are two endpoints that run a fragment, with and without what is pending (specification, 6).

- `Http.App.OnHost`: others change nothing but the host.
- `Http.Reply.told`: what a reply says, apart from headers.
- `Http.Service.run_path_iff`, `Http.Service.load_path_iff`, `Http.Service.runPending_path_iff`: how
  the requests of the two ways end.
- `Http.Service.Agrees`: two ends that differ in what is pending only.
- `Http.Service.paths_agree`: each end of one way agrees with an end of the other one.
- `Http.Service.reaching_pending`: handlers that do reach what is pending.
-/

namespace Deeplink.Http

variable {ρ : Type} {H : ρ → ρ → Prop}

/-! ## The host of an application -/

namespace App

/-- The application with another desk. -/
def withDesk (desk : Desk ρ) (app : App ρ) : App ρ := { app with desk }

/-- The application with another host. -/
def withHost (host : ρ) (app : App ρ) : App ρ := app.withDesk (app.desk.withHost host)

/-- Others change nothing but the host, as a relation allows them to. -/
def OnHost (H : ρ → ρ → Prop) : App ρ → App ρ → Prop :=
  Task.OnPart App.desk withDesk (Task.OnPart Desk.host Desk.withHost H)

theorem onHost_iff {app app' : App ρ} :
    OnHost H app app' ↔ ∃ host, H app.desk.host host ∧ app' = app.withHost host := by
  constructor
  · rintro ⟨_, ⟨host, hhost, rfl⟩, rfl⟩
    exact ⟨host, hhost, rfl⟩
  · rintro ⟨host, hhost, rfl⟩
    exact ⟨_, ⟨host, hhost, rfl⟩, rfl⟩

theorem onHost_isPreorder (hH : IsPreorder H) : IsPreorder (OnHost H) :=
  Task.OnPart.isPreorder desk_isPart (Task.OnPart.isPreorder Desk.host_isPart hH)

end App

/-! ## Replies -/

/-- What a reply says: its status, its content, and what is raised again. Its headers depend on the
origin of the request. -/
def Reply.told (reply : Reply) : Nat × Content × Option Text :=
  (reply.response.status, reply.response.content, reply.raised)

/-- A request has been answered with a report of what has been executed. -/
def Succeeded (x : Except Failure Reply) : Prop :=
  ∃ reply n, x = .ok reply ∧ reply.executed? = some n

namespace Service

section Replies

variable (s : Service ρ) (r : Request)

/-- What becomes of a dispatch is the same for every request. -/
theorem reply_told (r' : Request) (y : Except Failure Nat) :
    (s.reply r y).map Reply.told = (s.reply r' y).map Reply.told := by
  cases y with
  | ok n => rfl
  | error e =>
    cases hfault : e.fault with
    | command error =>
      simp only [Service.reply, hfault]
      show Except.ok (s.errorReply r error).told = Except.ok (s.errorReply r' error).told
      unfold errorReply
      cases s.framework.written error.cause.status.toNat (error.envelope s.now) <;> rfl
    | _ => simp only [Service.reply, hfault]

/-- Only a dispatch that has succeeded is reported. -/
theorem succeeded_reply_iff (y : Except Failure Nat) :
    Succeeded (s.reply r y) ↔ ∃ n, y = .ok n := by
  constructor
  · rintro ⟨reply, n, hreply, hn⟩
    cases y with
    | ok n => exact ⟨n, rfl⟩
    | error e =>
      have hnone : reply.executed? = none := by
        obtain ⟨v, hv⟩ := s.error_of_reply hreply
        exact Reply.executed?_of_error hv
      rw [hnone] at hn
      cases hn
  · rintro ⟨n, rfl⟩
    exact ⟨_, n, rfl, rfl⟩

end Replies

/-! ## Requests -/

/-- A body that gives a fragment has been read after a rest. -/
theorem Takes.isWellFormed {s : Service ρ} {r : Request} {app : App ρ} {hash : Text}
    (h : s.Takes r app hash) : (s.framework.body r).isWellFormed = true := by
  obtain ⟨-, hhash⟩ := h
  cases hbody : s.framework.body r with
  | defective offset =>
    rw [hbody] at hhash
    cases hhash
  | unreadable =>
    rw [hbody] at hhash
    cases hhash
  | _ => rfl

theorem mark_false_of_idle (app : App ρ) (hidle : app.isBusy = false) : mark false app = app := by
  rw [mark, ← hidle]

section Paths

variable (s : Service ρ) {r : Request} {hash : Text} {app app' : App ρ} {x : Except Failure Reply}
  {work : Task ρ Nat}

/-- While a request rests, others may change the host; then it enters its endpoint. -/
theorem respond_onHost_iff {e : Endpoint} (hr : Address.ofRequest r = .endpoint e)
    (hrests : s.rests r e = true) : Task.Ends (App.OnHost H) (s.respond r) app x app'
      ↔ ∃ host, H app.desk.host host ∧ Task.Ends (App.OnHost H)
          ((s.entry r e).attempt.bind (s.conclude r)) (app.withHost host) x app' := by
  rw [s.respond_ends_iff hr hrests]
  constructor
  · rintro ⟨_, hothers, hends⟩
    obtain ⟨host, hhost, rfl⟩ := App.onHost_iff.mp hothers
    exact ⟨host, hhost, hends⟩
  · rintro ⟨host, hhost, hends⟩
    exact ⟨_, App.onHost_iff.mpr ⟨host, hhost, rfl⟩, hends⟩

/-- The commands of a fragment are run on the host. -/
theorem run_path_iff (hsink : s.dispatcher.sink = none) (hr : Address.ofRequest r = .endpoint .run)
    (h : s.Takes r app hash) (hwork : s.dispatcher.run (Fragment.commands s.dispatcher.methods
      (some hash)) = work.focus Desk.host Desk.withHost) :
    Task.Ends (App.OnHost H) (s.respond r) app x app'
      ↔ ∃ host y host', H app.desk.host host ∧ Task.Ends H work host y host' ∧ x = s.reply r y
        ∧ app' = (s.checked r app).withHost host' := by
  rw [s.respond_onHost_iff hr h.isWellFormed]
  -- the host has no part in what is taken
  have htakes (host : ρ) : s.Takes r (app.withHost host) hash := h
  constructor
  · rintro ⟨host, hhost, hends⟩
    obtain ⟨y, app₁, hdispatch, rfl, rfl⟩ := (s.run_ends_iff (htakes host)).mp hends
    obtain ⟨desk, hdesk, rfl⟩ := (Task.Ends.focus_iff App.desk_isPart).mp hdispatch
    obtain ⟨host', hends', rfl⟩ := (Dispatcher.runFragment_ends_iff hsink hwork).mp hdesk
    exact ⟨host, y, host', hhost, hends', rfl,
      mark_false_of_idle ((s.checked r app).withHost host') h.1⟩
  · rintro ⟨host, y, host', hhost, hends, rfl, rfl⟩
    have hdispatch := (Task.Ends.focus_iff (s := mark true (s.checked r (app.withHost host)))
      App.desk_isPart).mpr
        ⟨_, (Dispatcher.runFragment_ends_iff (H := H) hsink hwork).mpr ⟨host', hends, rfl⟩, rfl⟩
    refine ⟨host, hhost, (s.run_ends_iff (htakes host)).mpr ⟨y, _, hdispatch, rfl, ?_⟩⟩
    exact (mark_false_of_idle ((s.checked r app).withHost host') h.1).symm

/-- The commands of a fragment become the pending ones. -/
theorem load_path_iff (hsink : s.dispatcher.sink = none)
    (hr : Address.ofRequest r = .endpoint .load) (h : s.Takes r app hash) :
    Task.Ends (App.OnHost H) (s.respond r) app x app'
      ↔ ∃ host, H app.desk.host host
        ∧ x = .ok (s.listReply r (Fragment.commands s.dispatcher.methods (some hash)))
        ∧ app' = ((s.checked r app).withHost host).withPending
            (Fragment.commands s.dispatcher.methods (some hash)) := by
  have hprompt : ((s.entry r .load).attempt.bind (s.conclude r)).Prompt :=
    (s.onBody_prompt s.load_prompt).attempt.bind (s.conclude_prompt r)
  have htakes (host : ρ) : s.Takes r (app.withHost host) hash := h
  have hload (host : ρ) :
      Task.Ends (App.OnHost H) ((s.entry r .load).attempt.bind (s.conclude r)) (app.withHost host) x
        app' ↔ x = .ok (s.listReply r (Fragment.commands s.dispatcher.methods (some hash)))
        ∧ app' = ((s.checked r app).withHost host).withPending
            (Fragment.commands s.dispatcher.methods (some hash)) := by
    obtain ⟨trace, hwork⟩ := s.load_taken (fun _ => true) .far hsink hr (htakes host)
    rw [s.resume_respond hr, hprompt.work_eq] at hwork
    obtain ⟨hresult, hstate, -⟩ := Task.Progress.mk.inj hwork
    rw [Task.Ends.prompt_iff hprompt, Task.done.inj hresult, hstate]
    rfl
  rw [s.respond_onHost_iff hr h.isWellFormed]
  constructor
  · rintro ⟨host, hhost, hends⟩
    exact ⟨host, hhost, (hload host).mp hends⟩
  · rintro ⟨host, hhost, hends⟩
    exact ⟨host, hhost, (hload host).mpr hends⟩

/-- The pending commands are run on the host, and then they are cleared, or left. -/
theorem runPending_path_iff (hr : Address.ofRequest r = .endpoint .runPending)
    (hidle : app.isBusy = false)
    (hwork : s.dispatcher.run app.desk.pending = work.focus Desk.host Desk.withHost) :
    Task.Ends (App.OnHost H) (s.respond r) app x app'
      ↔ ∃ host y host', H app.desk.host host ∧ Task.Ends H work host y host' ∧ x = s.reply r y
        ∧ app' = (app.withHost host').withPending (Dispatcher.left app.desk.pending y) := by
  rw [s.respond_onHost_iff hr rfl]
  have hidle (host : ρ) : (app.withHost host).isBusy = false := hidle
  have hwork (host : ρ) : s.dispatcher.run (app.withHost host).desk.pending
      = work.focus Desk.host Desk.withHost := hwork
  have hmark (host : ρ) (y : Except Failure Nat) :
      mark false ((app.withHost host).withPending (Dispatcher.left app.desk.pending y))
        = (app.withHost host).withPending (Dispatcher.left app.desk.pending y) :=
    mark_false_of_idle _ (hidle host)
  constructor
  · rintro ⟨host, hhost, hends⟩
    obtain ⟨y, app₁, hdispatch, rfl, rfl⟩ := (s.runPending_ends_iff (hidle host)).mp hends
    obtain ⟨desk, hdesk, rfl⟩ := (Task.Ends.focus_iff App.desk_isPart).mp hdispatch
    obtain ⟨host', hends', rfl⟩ := (Dispatcher.runOnce_ends_iff (hwork host)).mp hdesk
    exact ⟨host, y, host', hhost, hends', rfl, hmark host' y⟩
  · rintro ⟨host, y, host', hhost, hends, rfl, rfl⟩
    have hdispatch := (Task.Ends.focus_iff (s := mark true (app.withHost host))
      App.desk_isPart).mpr
        ⟨_, (Dispatcher.runOnce_ends_iff (H := H) (hwork host)).mpr ⟨host', hends, rfl⟩, rfl⟩
    refine ⟨host, hhost, (s.runPending_ends_iff (hidle host)).mpr ⟨y, _, hdispatch, rfl, ?_⟩⟩
    exact (hmark host' y).symm

end Paths

/-! ## Agreement -/

/-- Commands have been run at once, from the first application, and they have been loaded and then
been run as the pending ones: both have come to the same. -/
structure Agrees (app : App ρ) (cs : List Command) (x : Except Failure Reply) (a : App ρ)
    (x' : Except Failure Reply) (b : App ρ) : Prop where
  /-- The answers say the same. -/
  answers : x'.map Reply.told = x.map Reply.told
  /-- The host is the same: what is registered, the routes, the memory, and what is noted of the
  calls. Apart from what is pending, only the settings may differ, which may have to be built. -/
  state : b = { a with desk := ⟨b.desk.pending, a.desk.host⟩, settings := b.settings }
  /-- What was pending stays if the commands are run at once. -/
  kept : a.desk.pending = app.desk.pending
  /-- The commands that have been loaded are cleared when they have been run with success. -/
  cleared : Succeeded x' → b.desk.pending = []
  /-- Otherwise all of them stay. -/
  left : ¬ Succeeded x' → b.desk.pending = cs

theorem agrees_of_end (s : Service ρ) (r r' r₁ : Request) (app : App ρ) (cs : List Command)
    (y : Except Failure Nat) (host : ρ) : Agrees app cs (s.reply r y)
      ((s.checked r app).withHost host) (s.reply r' y)
      (((s.checked r₁ app).withHost host).withPending (Dispatcher.left cs y)) where
  answers := s.reply_told r' r y
  state := rfl
  kept := rfl
  cleared := by
    intro h
    obtain ⟨n, rfl⟩ := (s.succeeded_reply_iff r' y).mp h
    rfl
  left := by
    intro h
    cases y with
    | ok n => exact absurd ((s.succeeded_reply_iff r' (.ok n)).mpr ⟨n, rfl⟩) h
    | error e => rfl

section Agreement

variable {η μ : Type}

/-- **To load a fragment and to run what is pending comes to the same as to run the fragment**, for
handlers that neither see nor change what is pending. Each end of one way agrees with an end of the
other one, whatever others may do to the host meanwhile. -/
theorem paths_agree (call : Host.Call η μ) (s : Settings) (framework : Framework) (now : Text)
    (hcall : ∀ handler args, (call handler args).Hosted)
    {H : Host η (Host.Noted η μ) → Host η (Host.Noted η μ) → Prop} (hH : IsPreorder H)
    {rRun rLoad rPending : Request} (hrun : Address.ofRequest rRun = .endpoint .run)
    (hload : Address.ofRequest rLoad = .endpoint .load)
    (hpending : Address.ofRequest rPending = .endpoint .runPending)
    {app : App (Host η (Host.Noted η μ))} {hash : Text}
    (htakes : (noted call s framework now).Takes rRun app hash)
    (htakes' : (noted call s framework now).Takes rLoad app hash) :
    let service := noted call s framework now
    let others := App.OnHost H
    (∀ r, Task.Shadows (App.seen Host.forget) (service.respond r)
        ((standard call s framework now).respond r))
      ∧ ∃ cs, (service.dispatcher.parse (some hash) app.desk.host).result = .ok cs
      ∧ (∃ x a, Task.Ends others (service.respond rRun) app x a)
      ∧ (∀ x a, Task.Ends others (service.respond rRun) app x a →
        ∃ x₁ app₁ x' b, Task.Ends others (service.respond rLoad) app x₁ app₁
          ∧ Task.Ends others (service.respond rPending) app₁ x' b ∧ Agrees app cs x a x' b)
      ∧ ∀ x₁ app₁ x' b, Task.Ends others (service.respond rLoad) app x₁ app₁ →
        Task.Ends others (service.respond rPending) app₁ x' b →
        ∃ x a, Task.Ends others (service.respond rRun) app x a ∧ Agrees app cs x a x' b := by
  intro service others
  let cs := Fragment.commands service.dispatcher.methods (some hash)
  obtain ⟨work, hwork⟩ : (service.dispatcher.run cs).Hosted :=
    Dispatcher.run_hosted (Host.noted_runner_hosted hcall s) cs
  have hparse : (service.dispatcher.parse (some hash) app.desk.host).result = .ok cs :=
    congrArg Outcome.result (Fragment.parse_logged _ _ _)
  have hsink : service.dispatcher.sink = none := rfl
  -- what is pending behind the load are the commands of the fragment
  have hloaded (host : Host η (Host.Noted η μ)) {x' : Except Failure Reply}
      {b : App (Host η (Host.Noted η μ))} :
      Task.Ends others (service.respond rPending)
          (((service.checked rLoad app).withHost host).withPending cs) x' b
        ↔ ∃ host₁ y host', H host host₁ ∧ Task.Ends H work host₁ y host'
          ∧ x' = service.reply rPending y
          ∧ b = ((service.checked rLoad app).withHost host').withPending (Dispatcher.left cs y) :=
    service.runPending_path_iff hpending htakes.1 hwork
  refine ⟨(noted_shadows call s framework now).respond, cs, hparse, ?_, ?_, ?_⟩
  · exact ⟨_, _, .whole (App.onHost_isPreorder hH) _ app⟩
  · intro x a hends
    obtain ⟨host, y, host', hhost, hy, rfl, rfl⟩ :=
      (service.run_path_iff hsink hrun htakes hwork).mp hends
    -- nobody does anything between the load and the run
    refine ⟨_, _, _, _, (service.load_path_iff hsink hload htakes').mpr ⟨host, hhost, rfl, rfl⟩,
      (hloaded host).mpr ⟨host, y, host', hH.refl host, hy, rfl, rfl⟩, ?_⟩
    exact service.agrees_of_end rRun rPending rLoad app cs y host'
  · intro x₁ app₁ x' b hends₁ hends'
    obtain ⟨host, hhost, rfl, rfl⟩ := (service.load_path_iff hsink hload htakes').mp hends₁
    obtain ⟨host₁, y, host', hhost₁, hy, rfl, rfl⟩ := (hloaded host).mp hends'
    refine ⟨_, _, (service.run_path_iff hsink hrun htakes hwork).mpr
      ⟨host₁, y, host', hH.trans hhost hhost₁, hy, rfl, rfl⟩, ?_⟩
    exact service.agrees_of_end rRun rPending rLoad app cs y host'

/-- An application with one command, which is safe. -/
def commandApp (memory : μ) : App (Host Unit μ) :=
  { desk := ⟨[], { registry := Registry.register "x" ⟨(), true⟩ {}, memory }⟩ }

/-- A request to run this command. -/
def commandRun : Request :=
  { surrogateRun with body := "\x7b\"hash\":\"#e:run:x\"\x7d".toUTF8.toList }

/-- A request to load it. -/
def commandLoad : Request := { surrogateLoad with body := commandRun.body }

/-- A request to run what is pending. -/
def pendingRun : Request :=
  { surrogateRun with
    path := "/api/v1/hash-commands/pending/run"
    body := [] }

/-- Where these requests lead, and the fragment that they give. -/
theorem command_requests (s : Service (Host Unit μ)) (hs : s.framework = .standard ⟨[]⟩) :
    Address.ofRequest commandRun = .endpoint .run
    ∧ Address.ofRequest commandLoad = .endpoint .load
    ∧ Address.ofRequest pendingRun = .endpoint .runPending
    ∧ ∀ memory : μ, s.Takes commandRun (commandApp memory) "#e:run:x"
      ∧ s.Takes commandLoad (commandApp memory) "#e:run:x" := by
  have hhash : ((s.framework.body commandRun).fragment {}).result = .ok (.ok "#e:run:x") := by
    rw [hs]
    decide +kernel
  -- the two requests have one body
  have hbody : s.framework.body commandLoad = s.framework.body commandRun := by
    rw [hs]
    rfl
  exact ⟨by decide +kernel, by decide +kernel, by decide +kernel, fun _ =>
    ⟨⟨rfl, hhash⟩, ⟨rfl, hbody ▸ hhash⟩⟩⟩

/-- A handler that does nothing is called in both ways. -/
theorem paths_agree_idle : (∀ handler args, (Host.idle handler args).Hosted)
    ∧ Address.ofRequest commandRun = .endpoint .run
    ∧ Address.ofRequest commandLoad = .endpoint .load
    ∧ Address.ofRequest pendingRun = .endpoint .runPending
    ∧ idleNoted.Takes commandRun (commandApp ⟨(), []⟩) "#e:run:x"
    ∧ idleNoted.Takes commandLoad (commandApp ⟨(), []⟩) "#e:run:x"
    ∧ ∃ cs x a x₁ app₁ x' b,
      let others := App.OnHost Eq
      Task.Ends others (idleNoted.respond commandRun) (commandApp ⟨(), []⟩) x a
        ∧ Task.Ends others (idleNoted.respond commandLoad) (commandApp ⟨(), []⟩) x₁ app₁
        ∧ Task.Ends others (idleNoted.respond pendingRun) app₁ x' b
        ∧ Agrees (commandApp ⟨(), []⟩) cs x a x' b := by
  have hidle : ∀ handler args, (Host.idle handler args).Hosted := fun _ _ => .done _
  have heq : IsPreorder (Eq (α := Host Unit (Host.Noted Unit Unit))) :=
    { refl := fun _ => rfl
      trans := Eq.trans }
  obtain ⟨hrun, hload, hpending, htakes⟩ := idleNoted.command_requests rfl
  obtain ⟨htakes, htakes'⟩ := htakes ⟨(), []⟩
  obtain ⟨-, cs, -, ⟨x, a, hends⟩, hagree, -⟩ :=
    paths_agree Host.idle .defaults (.standard ⟨[]⟩) [] hidle heq hrun hload hpending htakes htakes'
  obtain ⟨x₁, app₁, x', b, hends₁, hends', h⟩ := hagree x a hends
  exact ⟨hidle, hrun, hload, hpending, htakes, htakes', cs, x, a, x₁, app₁, x', b, hends, hends₁,
    hends', h⟩

/-- A handler that loads a fragment. -/
def loading : Host.Call Unit Unit := fun _ _ =>
  ((Dispatcher.Operation.load (some "#e:run:y")).task (Host.standard Host.idle .defaults none)).bind
    fun _ => .done (.ok .null)

/-- A handler that fails if something is pending. -/
def peeking : Host.Call Unit Unit := fun _ _ => Task.get.bind fun desk =>
  .done (if desk.pending.isEmpty then .ok .null
    else .error (Failure.of (.raised .runtime "something is pending")))

/-- The services with these handlers. -/
def loadingService : Service (Host Unit Unit) := standard loading .defaults (.standard ⟨[]⟩) []

def peekingService : Service (Host Unit Unit) := standard peeking .defaults (.standard ⟨[]⟩) []

/-- **Handlers that reach what is pending**: a run of a fragment may leave something else pending
than before, and it may end otherwise than a run of the same commands when they are pending. -/
theorem reaching_pending : Address.ofRequest commandRun = .endpoint .run
    ∧ Address.ofRequest commandLoad = .endpoint .load
    ∧ Address.ofRequest pendingRun = .endpoint .runPending
    ∧ loadingService.Takes commandRun (commandApp ()) "#e:run:x"
    ∧ peekingService.Takes commandRun (commandApp ()) "#e:run:x"
    ∧ peekingService.Takes commandLoad (commandApp ()) "#e:run:x"
    ∧ (∃ x a, Task.Ends Eq (loadingService.respond commandRun) (commandApp ()) x a
        ∧ a.desk.pending ≠ (commandApp ()).desk.pending)
    ∧ ∃ x a x₁ app₁ x' b,
      Task.Ends Eq (peekingService.respond commandRun) (commandApp ()) x a
        ∧ Task.Ends Eq (peekingService.respond commandLoad) (commandApp ()) x₁ app₁
        ∧ Task.Ends Eq (peekingService.respond pendingRun) app₁ x' b
        ∧ x.toOption.map (·.response.status) = some 200
        ∧ x'.toOption.map (·.response.status) = some 502 := by
  have heq : IsPreorder (Eq (α := App (Host Unit Unit))) :=
    { refl := fun _ => rfl
      trans := Eq.trans }
  obtain ⟨-, -, -, hloading⟩ := loadingService.command_requests rfl
  obtain ⟨hrun, hload, hpending, hpeeking⟩ := peekingService.command_requests rfl
  refine ⟨hrun, hload, hpending, (hloading ()).1, (hpeeking ()).1, (hpeeking ()).2, ?_, ?_⟩
  · refine ⟨_, _, .whole heq _ _, fun hsame => ?_⟩
    exact absurd (congrArg List.length hsame) (by decide +kernel)
  · exact ⟨_, _, _, _, _, _, .whole heq _ _, .whole heq _ _, .whole heq _ _, by decide +kernel,
      by decide +kernel⟩

end Agreement

end Service

end Deeplink.Http

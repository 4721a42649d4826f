import Deeplink.Proofs.Dispatch.Shadows
import Deeplink.Proofs.Http.Exclusive
import Deeplink.Proofs.Task.Transfer

/-!
# Shadows of services

A service reaches the host only through its dispatcher. If that is shadowed, then so is every
answer.

- `Http.Service.Shadows`: one service does to a view of the host what another one does to the host.
- `Http.Service.Shadows.respond`: then every request is answered alike.
-/

namespace Deeplink.Http

variable {ρ τ α β : Type} {view : τ → ρ}

/-- An application, with a view of its host. -/
def App.seen (view : τ → ρ) (app : App τ) : App ρ :=
  { desk := Desk.seen view app.desk
    isBusy := app.isBusy
    settings := app.settings
    root := app.root }

/-- What is done on a desk is seen on the desk. -/
theorem App.onDesk_shadows {t : Task (Desk τ) α} {u : Task (Desk ρ) α}
    (h : Task.Shadows (Desk.seen view) t u) :
    Task.Shadows (App.seen view) (App.onDesk t) (App.onDesk u) := by
  refine .within App.desk_isPart (fun _ => ?_) (fun _ _ => ?_) h
  · rfl
  · rfl

namespace Service

/-- The second service does to the view of the host what the first one does to the host. -/
structure Shadows (view : τ → ρ) (s : Service τ) (s' : Service ρ) : Prop where
  dispatcher : s.dispatcher.Shadows view s'.dispatcher
  framework : s.framework = s'.framework
  now : s.now = s'.now

/-! ## Parts of answers -/

/-- Whether a dispatch is under way is no matter of the host. -/
theorem ensureIdle_shadows :
    Act.Shadows (App.seen view) (ensureIdle : Act (App τ) Unit) ensureIdle := by
  intro app
  rw [ensureIdle_apply, ensureIdle_apply]
  exact ⟨rfl, rfl, rfl⟩

/-- The mark is set and taken away alike. -/
theorem exclusively_shadows {t : Task (App τ) α} {u : Task (App ρ) α}
    (h : Task.Shadows (App.seen view) t u) :
    Task.Shadows (App.seen view) (exclusively t) (exclusively u) := by
  refine .bind (.ofAct ensureIdle_shadows) fun _ => .act (fun _ => rfl) fun _ => ?_
  show Task.Shadows _ (t.ensuring (mark false)) (u.ensuring (mark false))
  exact .bind h.attempt fun r => .act (fun _ => rfl) fun _ => .done r

theorem answering_shadows {t : Task (App τ) Json} {u : Task (App ρ) Json}
    (h : Task.Shadows (App.seen view) t u) :
    Task.Shadows (App.seen view) (answering t) (answering u) :=
  .bind h fun _ => .done _

namespace Shadows

variable {s : Service τ} {s' : Service ρ}

/-! ## Parts of answers that depend on the framework -/

/-- Corresponding services send commands alike. -/
theorem sent (h : Shadows view s s') (cs : List Command) :
    Task.Shadows (App.seen view) (s.sent cs) (s'.sent cs) := by
  rw [Service.sent, Service.sent, h.framework]
  exact .ofAct fun _ => ⟨rfl, rfl, rfl⟩

/-- Corresponding services read a body alike. -/
theorem onBody (h : Shadows view s s') (r : Request) {act : Text → Task (App τ) Json}
    {act' : Text → Task (App ρ) Json}
    (hact : ∀ hash, Task.Shadows (App.seen view) (act hash) (act' hash)) :
    Task.Shadows (App.seen view) (s.onBody r act) (s'.onBody r act') := by
  rw [Service.onBody, Service.onBody, h.framework]
  refine .bind (.ofAct fun _ => ⟨rfl, rfl, rfl⟩) fun result => ?_
  rcases result with (_ | errors) | hash
  · exact .done _
  · exact .emit _ (.done _)
  · exact answering_shadows (hact hash)

/-- Whether a body can be read is no matter of the host. -/
theorem rests (h : Shadows view s s') (r : Request) (e : Endpoint) :
    s.rests r e = s'.rests r e := by
  unfold Service.rests
  rw [h.framework]

/-- The same failures have responses, and the responses are the same. -/
theorem recover (h : Shadows view s s') (r : Request) (x : Except Failure Response) :
    Task.Shadows (App.seen view) (s.recover r x) (s'.recover r x) := by
  cases x with
  | ok response => exact .done _
  | error e =>
    by_cases hcommand : ∃ error, e.fault = .command error
    · obtain ⟨error, hfault⟩ := hcommand
      rw [s.recover_of_command r hfault, s'.recover_of_command r hfault]
      refine .emit _ (.ofAct fun app => ?_)
      rw [h.framework, h.now]
      exact ⟨rfl, rfl, rfl⟩
    · rw [s.recover_of_other r fun error h => hcommand ⟨error, h⟩,
        s'.recover_of_other r fun error h => hcommand ⟨error, h⟩]
      exact .done _

/-- The same failures escape, and all others have one reply. -/
theorem deliver (h : Shadows view s s') (r : Request) (x : Except Failure Response) :
    Task.Shadows (App.seen view) (s.deliver r x) (s'.deliver r x) := by
  cases x with
  | ok response =>
    rw [Service.deliver, h.framework]
    exact .done _
  | error e =>
    cases he : e.escaping? with
    | none =>
      simp only [Service.deliver, he]
      exact .emit _ (.done _)
    | some escaping =>
      simp only [Service.deliver, he]
      exact .done _

theorem conclude (h : Shadows view s s') (r : Request) (x : Except Failure Response) :
    Task.Shadows (App.seen view) (s.conclude r x) (s'.conclude r x) :=
  .bind (h.recover r x).attempt (h.deliver r)

/-! ## Answers -/

/-- Every endpoint does the same on what is seen of the host. -/
theorem entry (h : Shadows view s s') (r : Request) (e : Endpoint) :
    Task.Shadows (App.seen view) (s.entry r e) (s'.entry r e) := by
  have hd := h.dispatcher
  cases e with
  | health =>
    refine .ofAct fun app => ?_
    rw [h.framework, health, health, hd.methods]
    exact ⟨rfl, rfl, rfl⟩
  | parse =>
    refine h.onBody r fun hash => .bind (App.onDesk_shadows (.ofAct ?_)) h.sent
    exact Dispatcher.onHost_shadows (hd.parse (some hash))
  | pending => exact answering_shadows (.get_bind fun app => h.sent app.desk.pending)
  | load =>
    refine h.onBody r fun hash => .bind (.ofAct ensureIdle_shadows) fun _ =>
      .bind (App.onDesk_shadows (.ofAct (hd.load (some hash)))) h.sent
  | runPending =>
    refine answering_shadows (.bind (exclusively_shadows (App.onDesk_shadows hd.runOnce)) ?_)
    exact fun _ => .emit _ (.done _)
  | run =>
    refine h.onBody r fun hash => .bind (exclusively_shadows ?_) fun _ => .done _
    exact App.onDesk_shadows (hd.runFragment (some hash))

/-- **Every request is answered alike**, and the same is done to the view of the host. -/
theorem respond (h : Shadows view s s') (r : Request) :
    Task.Shadows (App.seen view) (s.respond r) (s'.respond r) := by
  by_cases hr : ∃ e, Address.ofRequest r = .endpoint e
  · obtain ⟨e, he⟩ := hr
    rw [s.respond_eq he, s'.respond_eq he, serve_eq, serve_eq]
    refine .bind (.attempt ?_) (h.conclude r)
    rw [h.rests r e]
    by_cases hrests : s'.rests r e = true
    · rw [if_pos hrests, if_pos hrests]
      exact .rest (h.entry r e)
    · rw [if_neg hrests, if_neg hrests]
      exact h.entry r e
  · -- without an endpoint the answer does not depend on the dispatcher
    unfold Service.respond
    rw [h.framework]
    cases s'.framework.preflight? r with
    | some answer => exact .done _
    | none =>
      unfold Service.route
      cases haddress : Address.ofRequest r with
      | endpoint e => exact absurd ⟨e, haddress⟩ hr
      | _ => exact .done _

end Shadows

end Service

end Deeplink.Http

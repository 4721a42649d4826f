import Deeplink.Proofs.Http.Loading
import Deeplink.Proofs.Json.Plain
import Deeplink.Proofs.Task.Ends

/-!
# How dispatches are answered

A request that begins a dispatch is answered when the dispatch has ended: with a report, with the
envelope of the error of the pipeline that it has ended with, or with an internal error if that
envelope cannot be sent. Run responses and rejections are those of the specification (6 and 7).

- `Http.Service.errorReply`: the reply to an error of the pipeline.
- `Http.Service.reply`: what becomes of the end of a dispatch.
- `Http.Service.run_ends_iff`, `Http.Service.runPending_ends_iff`: a request ends with what becomes
  of the end of its dispatch.
- `Http.Service.errorReply_of_scalar`, `Http.Service.errorReply_of_surrogate`: whether an envelope
  can be sent depends on the texts in it.
-/

namespace Deeplink.Http.Service

variable {ρ : Type}

/-! ## Replies -/

/-- The reply to an error of the pipeline: its envelope, if that can be sent. -/
def errorReply (s : Service ρ) (r : Request) (e : CommandError) : Reply :=
  match s.framework.written e.cause.status.toNat (e.envelope s.now) with
  | .ok response => ⟨s.framework.share r response, none⟩
  | .error e => internalReply e

/-- What becomes of a failure that is no error of the pipeline. What escapes has no reply. -/
def otherReply (e : Failure) : Except Failure Reply :=
  match e.escaping? with
  | some escaping => .error escaping
  | none => .ok (internalReply e)

/-- What becomes of the end of a dispatch. -/
def reply (s : Service ρ) (r : Request) : Except Failure Nat → Except Failure Reply
  | .ok n => .ok ⟨s.framework.share r (Response.ofData 200 (RunReport.mk n).toJson), none⟩
  | .error e =>
    match e.fault with
    | .command error => .ok (s.errorReply r error)
    | _ => otherReply e

theorem errorReply_content (s : Service ρ) (r : Request) (e : CommandError) :
    ∃ v, (s.errorReply r e).response.content = .data (.obj [("error", v)]) := by
  unfold errorReply Framework.written
  cases s.framework.writeFault? (e.envelope s.now) with
  | none => exact ⟨_, rfl⟩
  | some fault => exact ⟨_, rfl⟩

theorem otherReply_content {e : Failure} {reply : Reply} (h : otherReply e = .ok reply) :
    ∃ v, reply.response.content = .data (.obj [("error", v)]) := by
  unfold otherReply at h
  cases hescaping : e.escaping? with
  | none =>
    rw [hescaping] at h
    obtain rfl := Except.ok.inj h
    exact ⟨_, rfl⟩
  | some escaping =>
    rw [hescaping] at h
    cases h

/-- What becomes of a failure says so. -/
theorem error_of_reply (s : Service ρ) {r : Request} {e : Failure} {reply : Reply}
    (h : s.reply r (.error e) = .ok reply) :
    ∃ v, reply.response.content = .data (.obj [("error", v)]) := by
  cases hfault : e.fault with
  | command error =>
    simp only [Service.reply, hfault] at h
    obtain rfl := Except.ok.inj h
    exact s.errorReply_content r error
  | _ =>
    simp only [Service.reply, hfault] at h
    exact otherReply_content h

section Ends

variable (s : Service ρ) {others : App ρ → App ρ → Prop} {r : Request} {app app' : App ρ}
  {x : Except Failure Reply}

theorem deliver_error_whole (r : Request) (e : Failure) (app : App ρ) :
    ∃ trace, (s.deliver r (.error e)).whole app = ⟨otherReply e, app, trace⟩ := by
  cases h : e.escaping? with
  | none =>
    simp only [deliver, otherReply, h]
    exact ⟨_, rfl⟩
  | some escaping =>
    simp only [deliver, otherReply, h]
    exact ⟨_, rfl⟩

theorem conclude_error_whole (r : Request) (e : Failure) (app : App ρ) :
    ∃ trace, (s.conclude r (.error e)).whole app = ⟨s.reply r (.error e), app, trace⟩ := by
  cases hfault : e.fault with
  | command error =>
    simp only [conclude, s.recover_of_command r hfault, Service.reply, hfault]
    show ∃ trace, (((Task.signal _).bind fun _ => Task.ofAct (Act.ofExcept
      (s.framework.written error.cause.status.toNat
        (error.envelope s.now)))).attempt.bind _).whole _
        = ⟨.ok (s.errorReply r error), app, trace⟩
    unfold errorReply Framework.written
    cases s.framework.writeFault? (error.envelope s.now) with
    | none => exact ⟨_, rfl⟩
    | some fault => exact ⟨_, rfl⟩
  | _ =>
    rw [s.conclude_eq_deliver r (by simp [hfault])]
    simp only [Service.reply, hfault]
    exact s.deliver_error_whole r e app

/-- A failure becomes a reply at once, and nothing is touched. -/
theorem conclude_error_ends_iff {e : Failure} :
    Task.Ends others (s.conclude r (.error e)) app x app'
      ↔ x = s.reply r (.error e) ∧ app' = app := by
  obtain ⟨trace, hwhole⟩ := s.conclude_error_whole r e app
  rw [Task.Ends.prompt_iff (s.conclude_prompt r _), hwhole]

/-- What follows a dispatch is over at once, and reports it or its failure. -/
def Follow (s : Service ρ) (r : Request) (after : Except Failure Nat → Task (App ρ) Reply) : Prop :=
  ∀ others y app x app', Task.Ends others (after y) app x app' ↔ x = s.reply r y ∧ app' = app

theorem follow_of_report {f : Nat → Task (App ρ) Json} (hf : ∀ n, (f n).Prompt)
    (hreport : ∀ n app, ∃ trace, (f n).whole app = ⟨.ok (RunReport.mk n).toJson, app, trace⟩) :
    s.Follow r (Task.caught (fun n => answering (f n)) (s.conclude r)) := by
  intro others y app x app'
  cases y with
  | error e => exact s.conclude_error_ends_iff
  | ok n =>
    obtain ⟨trace, hwhole⟩ := hreport n app
    have hends {z : Except Failure Json} {app₁ : App ρ} : Task.Ends others (f n) app z app₁
        ↔ z = .ok (RunReport.mk n).toJson ∧ app₁ = app := by
      rw [Task.Ends.prompt_iff (hf n), hwhole]
    rw [Task.caught_ok, Task.Ends.attempt_bind_iff]
    constructor
    · rintro ⟨z, app₁, hanswer, hconclude⟩
      rcases hanswer.of_bind with ⟨v, app₂, hv, hdone⟩ | ⟨e, -, he⟩
      · obtain ⟨hok, rfl⟩ := hends.mp hv
        obtain rfl := Except.ok.inj hok
        cases hdone with
        | done =>
          cases hconclude with
          | done => exact ⟨rfl, rfl⟩
      · obtain ⟨he, -⟩ := hends.mp he
        cases he
    · rintro ⟨rfl, rfl⟩
      exact ⟨_, _, (hends.mpr ⟨rfl, rfl⟩).bind (.done _ _), .done _ _⟩

theorem runPending_follow : ∃ f,
    s.runPending = (exclusively (App.onDesk s.dispatcher.runOnce)).bind f
      ∧ s.Follow r (Task.caught (fun n => answering (f n)) (s.conclude r)) :=
  ⟨_, rfl, s.follow_of_report (fun _ => trivial) fun _ _ => ⟨_, rfl⟩⟩

theorem run_follow (hash : Text) : ∃ f,
    s.run hash = (exclusively (App.onDesk (s.dispatcher.runFragment (some hash)))).bind f
      ∧ s.Follow r (Task.caught (fun n => answering (f n)) (s.conclude r)) :=
  ⟨_, rfl, s.follow_of_report (fun _ => trivial) fun _ _ => ⟨_, rfl⟩⟩

/-! ## Dispatches -/

/-- A request that rests before it enters its endpoint ends as it does from there, whatever others
have done before. -/
theorem respond_ends_iff {e : Endpoint} (hr : Address.ofRequest r = .endpoint e)
    (hrests : s.rests r e = true) : Task.Ends others (s.respond r) app x app'
      ↔ ∃ app₁, others app app₁
        ∧ Task.Ends others ((s.entry r e).attempt.bind (s.conclude r)) app₁ x app' := by
  rw [s.respond_eq hr, serve_eq, if_pos hrests]
  constructor
  · intro h
    cases h with
    | rest hothers h => exact ⟨_, hothers, h⟩
  · rintro ⟨app₁, hothers, h⟩
    exact .rest hothers h

omit s in
/-- While no dispatch is under way, another one ends with what its task ends with. -/
theorem exclusively_ends_iff {t : Task (App ρ) Nat} (hidle : app.isBusy = false)
    {y : Except Failure Nat} : Task.Ends others (exclusively t) app y app'
      ↔ ∃ app₁, Task.Ends others t (mark true app) y app₁ ∧ app' = mark false app₁ := by
  have hensure : (ensureIdle app).result = .ok () ∧ (ensureIdle app).state = app := by
    rw [ensureIdle_apply, hidle]
    exact ⟨rfl, rfl⟩
  show Task.Ends others ((Task.ofAct ensureIdle).bind fun _ =>
    (Task.modify (mark true)).bind fun _ => t.ensuring (mark false)) app y app' ↔ _
  rw [Task.Ends.ofAct_bind_iff hensure.1, hensure.2, Task.Ends.modify_bind_iff, Task.ensuring,
    Task.Ends.attempt_bind_iff]
  constructor
  · rintro ⟨y', app₁, ht, hmark⟩
    cases hmark with
    | act hdone =>
      cases hdone with
      | done => exact ⟨app₁, ht, rfl⟩
  · rintro ⟨app₁, ht, rfl⟩
    exact ⟨y, app₁, ht, .act (.done y _)⟩

/-- A request that asks for a dispatch while no other is under way is answered with what becomes of
its end. -/
theorem dispatch_ends_iff (hidle : app.isBusy = false) {t : Task (App ρ) Nat}
    {f : Nat → Task (App ρ) Json}
    (hf : s.Follow r (Task.caught (fun n => answering (f n)) (s.conclude r))) :
    Task.Ends others ((answering ((exclusively t).bind f)).attempt.bind (s.conclude r)) app x app'
      ↔ ∃ y app₁, Task.Ends others t (mark true app) y app₁ ∧ x = s.reply r y
        ∧ app' = mark false app₁ := by
  rw [answering, Task.bind_assoc, Task.attempt_bind_bind, Task.Ends.attempt_bind_iff]
  constructor
  · rintro ⟨y, app₁, hrun, hafter⟩
    obtain ⟨app₂, ht, rfl⟩ := (exclusively_ends_iff hidle).mp hrun
    obtain ⟨rfl, rfl⟩ := (hf _ _ _ _ _).mp hafter
    exact ⟨y, app₂, ht, rfl, rfl⟩
  · rintro ⟨y, app₁, ht, rfl, rfl⟩
    exact ⟨y, _, (exclusively_ends_iff hidle).mpr ⟨app₁, ht, rfl⟩, (hf _ _ _ _ _).mpr ⟨rfl, rfl⟩⟩

/-- **What is pending is run**, and the request ends with what becomes of that. -/
theorem runPending_ends_iff (hidle : app.isBusy = false) :
    Task.Ends others ((s.entry r .runPending).attempt.bind (s.conclude r)) app x app'
      ↔ ∃ y app₁, Task.Ends others (App.onDesk s.dispatcher.runOnce) (mark true app) y app₁
        ∧ x = s.reply r y ∧ app' = mark false app₁ := by
  obtain ⟨f, hrun, hf⟩ := s.runPending_follow (r := r)
  rw [entry, hrun]
  exact s.dispatch_ends_iff hidle hf

/-- **The commands of a fragment are run**, and the request ends with what becomes of that. -/
theorem run_ends_iff {hash : Text} (h : s.Takes r app hash) :
    Task.Ends others ((s.entry r .run).attempt.bind (s.conclude r)) app x app'
      ↔ ∃ y app₁, Task.Ends others (App.onDesk (s.dispatcher.runFragment (some hash)))
          (mark true (s.checked r app)) y app₁
        ∧ x = s.reply r y ∧ app' = mark false app₁ := by
  obtain ⟨hidle, hhash⟩ := h
  obtain ⟨f, hrun, hf⟩ := s.run_follow (r := r) hash
  have hchecked : (s.checked r app).isBusy = false := hidle
  rw [← s.dispatch_ends_iff hchecked hf, ← hrun, entry, onBody, Task.attempt_bind_bind,
    Task.Ends.attempt_bind_iff]
  constructor
  · rintro ⟨y, app₁, hbody, hrest⟩
    obtain ⟨rfl, rfl⟩ := hbody.of_ofAct
    have hresult : (App.onSettings (s.framework.body r).fragment app).result = .ok (.ok hash) :=
      hhash
    rw [hresult] at hrest
    exact hrest
  · intro hrest
    refine ⟨.ok (.ok hash), s.checked r app, Task.Ends.ofAct_iff.mpr ⟨hhash.symm, rfl⟩, hrest⟩

end Ends

/-! ## Envelopes -/

section Envelopes

variable {now : Text} {c : Command} {k : Nat} {cause : CommandError.Cause}

/-- What is written of an error at a place has surrogates only if its message has some, or the
method or the name of the command. -/
theorem envelope_isScalar (hnow : now.isScalar = true) (hcode : cause.code.isScalar = true) :
    (Json.write Json.Style.compact
      (CommandError.envelope now ⟨cause, Dispatcher.place c k⟩)).isScalar
      = (cause.message.isScalar && (c.method.isScalar && c.name.isScalar)) := by
  have hstring (t : Text) : (Json.Style.compact.string t).isScalar = t.isScalar :=
    Json.Style.string_isScalar_eq rfl t
  have hcategory : (cause.category.name).isScalar = true := by cases cause.category <;> rfl
  have hseverity : (cause.severity.name).isScalar = true := by cases cause.severity <;> rfl
  have hpunctuation : Json.Style.compact.colon.isScalar = true
      ∧ Json.Style.compact.comma.isScalar = true := ⟨rfl, rfl⟩
  have hnil : Text.isScalar [] = true := rfl
  simp only [CommandError.envelope, CommandError.envelopeOf, CommandError.optionalText,
    CommandError.message, Dispatcher.place, Option.map_some, Option.map_none, Option.getD_some,
    Option.getD_none, Json.write, Json.writeMembers, Text.isScalar_append,
    Text.isScalar_cons_char, Text.isScalar_ofString, hstring, Json.ofInt_isScalar, hcategory,
    hseverity, hpunctuation, hnil, hcode, hnow, Bool.true_and, Bool.and_true]

variable (s : Service ρ) (hs : s.framework.Lawful) (r : Request)

include hs

/-- An envelope without surrogates is sent. -/
theorem errorReply_of_scalar (hnow : s.now.isScalar = true) (hcode : cause.code.isScalar = true)
    (hmessage : cause.message.isScalar = true) (hmethod : c.method.isScalar = true)
    (hname : c.name.isScalar = true) :
    s.errorReply r ⟨cause, Dispatcher.place c k⟩
      = ⟨s.framework.share r (Response.ofData cause.status.toNat
          (CommandError.envelope s.now ⟨cause, Dispatcher.place c k⟩)), none⟩ := by
  have hscalar := envelope_isScalar (c := c) (k := k) hnow hcode
  rw [hmessage, hmethod, hname] at hscalar
  rw [errorReply, Framework.written, (hs.writes _).mpr hscalar]

/-- An envelope with a surrogate cannot be sent: the answer is an internal error. -/
theorem errorReply_of_surrogate (hnow : s.now.isScalar = true) (hcode : cause.code.isScalar = true)
    (h : ¬ (c.method.isScalar = true ∧ c.name.isScalar = true)) :
    ∃ fault, s.errorReply r ⟨cause, Dispatcher.place c k⟩
      = internalReply (Failure.of (.unwritable fault)) := by
  have hscalar := envelope_isScalar (c := c) (k := k) hnow hcode
  have hsome : s.framework.writeFault?
      (CommandError.envelope s.now ⟨cause, Dispatcher.place c k⟩) ≠ none := by
    rw [ne_eq, hs.writes, hscalar, Bool.and_eq_true, Bool.and_eq_true]
    exact fun hall => h hall.2
  rw [errorReply, Framework.written]
  cases hfault : s.framework.writeFault?
      (CommandError.envelope s.now ⟨cause, Dispatcher.place c k⟩) with
  | none => exact absurd hfault hsome
  | some fault => exact ⟨fault, rfl⟩

end Envelopes

end Deeplink.Http.Service

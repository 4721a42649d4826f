import Deeplink.Http.Service
import Deeplink.Proofs.Json.Carried
import Deeplink.Proofs.Task.Guarantee

/-!
# How requests enter their endpoints

A request that leads to an endpoint first rests, because its body has to be read; then it enters its
endpoint, and what comes of that is turned into a reply.

- `Http.Framework.Lawful`: what answers rest on; `Http.Framework.standard_lawful` says that the
  standard framework is lawful.
- `Http.Service.entry`: what an endpoint does once it is entered.
- `Http.Service.conclude`: what becomes of the end of that. It is done in one go, whatever the end
  is, and touches nothing but the log.
- `Http.Service.conclude_error_work`: a failure becomes a reply that tells of it.
- `Http.Service.resume_respond`: a request enters its endpoint and is answered.
- `Http.Service.respond_eq_done`: a request that leads to no endpoint is answered at once.
- `Http.Service.onBody_work`: the body of a request is checked first.
-/

namespace Deeplink.Http

variable {ρ : Type}

/-! ## Frameworks -/

/-- What answers rest on. -/
structure Framework.Lawful (f : Framework) : Prop where
  /-- Commands are sent as they have to be. -/
  carrier : f.carrier.Lawful
  /-- Data can be written exactly if its text has no surrogates. -/
  writes : ∀ v, f.writeFault? v = none ↔ (Json.write Json.Style.compact v).isScalar = true

/-- Answers can rest on the standard framework, whoever may read them. -/
theorem Framework.standard_lawful (sharing : Sharing) : (standard sharing).Lawful where
  carrier := Json.Carrier.standard_lawful
  writes _ := Utf8.firstSurrogates?_eq_none_iff _

/-! ## Addresses -/

/-- No endpoint is for questions asked beforehand. -/
theorem Endpoint.method_ne_options (e : Endpoint) : e.method ≠ "OPTIONS" := by
  cases e <;> decide

/-- A request that leads to an endpoint has its method. -/
theorem Address.method_of_endpoint {r : Request} {e : Endpoint}
    (h : Address.ofRequest r = .endpoint e) : e.method = r.method := by
  unfold Address.ofRequest at h
  split at h
  · split at h
    next found hfound =>
      obtain rfl : found = e := by injection h
      simpa using List.find?_some hfound
    next => cases h
  · dsimp only at h
    split at h
    · cases h
    · cases h

/-- A request that leads to an endpoint is no question asked beforehand. -/
theorem Framework.preflight?_of_endpoint (f : Framework) {r : Request} {e : Endpoint}
    (h : Address.ofRequest r = .endpoint e) : f.preflight? r = none := by
  have hmethod : r.method ≠ "OPTIONS" := by
    rw [← Address.method_of_endpoint h]
    exact e.method_ne_options
  exact if_neg hmethod

namespace Service

/-! ## Replies -/

/-- The response to the end of an endpoint's work, if there is one. -/
def recover (s : Service ρ) (r : Request) : Except Failure Response → Task (App ρ) Response
  | .ok response => .done (.ok response)
  | .error failure =>
    match failure.fault with
    | .command error => s.errorResponse r.shownPath error
    | _ => Task.fail failure

/-- The reply to a response, or to a failure that has none. -/
def deliver (s : Service ρ) (r : Request) : Except Failure Response → Task (App ρ) Reply
  | .ok response => .done (.ok ⟨s.framework.share r response, none⟩)
  | .error e =>
    match e.escaping? with
    | some escaping => Task.fail escaping
    | none => internalError r.shownPath e

/-- What becomes of the end of an endpoint's work. -/
def conclude (s : Service ρ) (r : Request) (x : Except Failure Response) : Task (App ρ) Reply :=
  (s.recover r x).attempt.bind (s.deliver r)

/-- **A request that leads to an endpoint** is served, and how that ends becomes its reply. -/
theorem respond_eq (s : Service ρ) {r : Request} {e : Endpoint}
    (h : Address.ofRequest r = .endpoint e) :
    s.respond r = (s.serve r e).attempt.bind (s.conclude r) := by
  have hrespond : s.respond r = (s.route r).attempt.bind (s.deliver r) := by
    unfold respond
    rw [s.framework.preflight?_of_endpoint h]
    show (s.route r).attempt.bind _ = _
    congr 1
  have hroute : s.route r = (s.serve r e).attempt.bind (s.recover r) := by
    unfold route
    rw [h]
    show (s.serve r e).attempt.bind _ = _
    congr 1
  rw [hrespond, hroute, Task.attempt_bind, Task.attempt_attempt, Task.bind_assoc, Task.bind_assoc]
  rfl

/-- An error of the pipeline has a response. -/
theorem recover_of_command (s : Service ρ) (r : Request) {e : Failure} {error : CommandError}
    (h : e.fault = .command error) :
    s.recover r (.error e) = s.errorResponse r.shownPath error := by
  rw [recover, h]

/-- No other failure has a response. -/
theorem recover_of_other (s : Service ρ) (r : Request) {e : Failure}
    (h : ∀ error, e.fault ≠ .command error) : s.recover r (.error e) = Task.fail e := by
  rw [recover]
  cases hfault : e.fault with
  | command error => exact absurd hfault (h error)
  | _ => rfl

theorem errorResponse_prompt (s : Service ρ) (path : Text) (e : CommandError) :
    (s.errorResponse path e).Prompt :=
  Task.Prompt.ofAct _

theorem recover_prompt (s : Service ρ) (r : Request) (x : Except Failure Response) :
    (s.recover r x).Prompt := by
  cases x with
  | ok response => trivial
  | error failure =>
    rw [recover]
    cases failure.fault with
    | command error => exact s.errorResponse_prompt r.shownPath error
    | _ => trivial

theorem deliver_prompt (s : Service ρ) (r : Request) (x : Except Failure Response) :
    (s.deliver r x).Prompt := by
  cases x with
  | ok response => trivial
  | error e =>
    rw [deliver]
    cases e.escaping? with
    | none => trivial
    | some escaping => trivial

/-- A reply is made in one go, whatever it is made of. -/
theorem conclude_prompt (s : Service ρ) (r : Request) (x : Except Failure Response) :
    (s.conclude r x).Prompt :=
  (s.recover_prompt r x).attempt.bind (s.deliver_prompt r)

section Keeps

variable {R : App ρ → App ρ → Prop}

theorem recover_keeps (hR : ∀ app, R app app) (s : Service ρ) (r : Request)
    (x : Except Failure Response) : (s.recover r x).Keeps R := by
  cases x with
  | ok response => trivial
  | error failure =>
    rw [recover]
    cases failure.fault with
    | command error =>
      exact .bind (t := Task.signal _) trivial fun _ => .ofAct fun app => hR app
    | _ => trivial

theorem deliver_keeps (s : Service ρ) (r : Request) (x : Except Failure Response) :
    (s.deliver r x).Keeps R := by
  cases x with
  | ok response => trivial
  | error e =>
    rw [deliver]
    cases e.escaping? with
    | none => trivial
    | some escaping => trivial

/-- Nothing is touched when a reply is made. -/
theorem conclude_keeps (hR : ∀ app, R app app) (s : Service ρ) (r : Request)
    (x : Except Failure Response) : (s.conclude r x).Keeps R :=
  (s.recover_keeps hR r x).attempt.bind (s.deliver_keeps r)

end Keeps

section Failures

variable (s : Service ρ) (r : Request) (e : Failure) (isOpen : Text → Bool) (reach : Task.Reach)
  (app : App ρ)

/-- A failure that has no response is an internal error, unless something escapes. -/
theorem deliver_error_work :
    ∃ x trace, (s.deliver r (.error e)).work isOpen reach app = ⟨.done x, app, trace, false⟩
      ∧ (e.escaping? = none → ∃ reply, x = .ok reply)
      ∧ ∀ reply, x = .ok reply →
        (∃ v, reply.response.content = .data (.obj [("error", v)]))
          ∧ reply.response.status = 500 := by
  rw [deliver]
  cases e.escaping? with
  | none =>
    refine ⟨_, _, rfl, fun _ => ⟨_, rfl⟩, ?_⟩
    rintro reply ⟨⟩
    exact ⟨⟨_, rfl⟩, rfl⟩
  | some escaping =>
    refine ⟨_, _, rfl, nofun, ?_⟩
    rintro reply ⟨⟩

variable {e} in
/-- Only an error of the pipeline has a response. -/
theorem conclude_eq_deliver (h : ∀ error, e.fault ≠ .command error) :
    s.conclude r (.error e) = s.deliver r (.error e) := by
  rw [conclude, s.recover_of_other r h]
  rfl

/-- **What becomes of a failure**: a reply that tells of it, and none if something escapes.
Nothing is touched, whatever the failure is. -/
theorem conclude_error_work :
    ∃ x trace, (s.conclude r (.error e)).work isOpen reach app = ⟨.done x, app, trace, false⟩
      ∧ (e.escaping? = none → ∃ reply, x = .ok reply)
      ∧ ∀ reply, x = .ok reply → (∃ v, reply.response.content = .data (.obj [("error", v)]))
        ∧ (reply.response.status = 500
          ∨ ∃ error, e.fault = .command error
            ∧ reply.response.status = error.cause.status.toNat) := by
  by_cases hcommand : ∃ error, e.fault = .command error
  · obtain ⟨error, hfault⟩ := hcommand
    rw [conclude, s.recover_of_command r hfault]
    show ∃ x trace, (((Task.signal _).bind fun _ => Task.ofAct (Act.ofExcept
      (s.framework.written error.cause.status.toNat
        (error.envelope s.now)))).attempt.bind _).work _ _ _ = _ ∧ _
    rw [Framework.written]
    cases s.framework.writeFault? (error.envelope s.now) with
    | none =>
      refine ⟨_, _, rfl, fun _ => ⟨_, rfl⟩, ?_⟩
      rintro reply ⟨⟩
      exact ⟨⟨_, rfl⟩, .inr ⟨error, hfault, rfl⟩⟩
    | some surrogates =>
      -- the text of the error cannot be sent, which is a failure that has no response
      refine ⟨_, _, rfl, fun _ => ⟨_, rfl⟩, ?_⟩
      rintro reply ⟨⟩
      exact ⟨⟨_, rfl⟩, .inl rfl⟩
  · obtain ⟨x, trace, hwork, hsome, hreply⟩ := s.deliver_error_work r e isOpen reach app
    rw [s.conclude_eq_deliver r fun error h => hcommand ⟨error, h⟩]
    exact ⟨x, trace, hwork, hsome, fun reply hx => ⟨(hreply reply hx).1, .inl (hreply reply hx).2⟩⟩

end Failures

/-! ## Endpoints -/

/-- Data as the response of an endpoint. -/
def answering (t : Task (App ρ) Json) : Task (App ρ) Response :=
  t.bind fun v => .done (.ok (Response.ofData 200 v))

/-- What is done with the fragment of a body, or with a body that gives none. -/
def onFragment (r : Request) (act : Text → Task (App ρ) Json) :
    Except Body.Refusal Text → Task (App ρ) Response
  | .ok hash => answering (act hash)
  | .error .unreadable => .done (.ok (Response.ofDetail 400 "There was an error parsing the body"))
  | .error (.invalid errors) => invalidBody r.shownPath errors

/-- What is done with the body of a request. -/
def onBody (s : Service ρ) (r : Request) (act : Text → Task (App ρ) Json) :
    Task (App ρ) Response :=
  (Task.ofAct (App.onSettings (s.framework.body r).fragment)).bind (onFragment r act)

/-- What an endpoint does once it is entered. -/
def entry (s : Service ρ) (r : Request) : Endpoint → Task (App ρ) Response
  | .health => Task.ofAct (Act.ofExcept (s.framework.written 200 s.health))
  | .parse => s.onBody r s.parse
  | .pending => answering s.pending
  | .load => s.onBody r s.load
  | .runPending => answering s.runPending
  | .run => s.onBody r s.run

/-- Whether the request rests before it enters its endpoint. -/
def rests (s : Service ρ) (r : Request) : Endpoint → Bool
  | .health => false
  | .pending | .runPending => true
  | .parse | .load | .run => (s.framework.body r).isWellFormed

/-- A body that can be read makes the request rest before it is checked. -/
theorem withFragment_eq (s : Service ρ) (r : Request) (act : Text → Task (App ρ) Json) :
    s.withFragment r act =
      if (s.framework.body r).isWellFormed then .rest (s.onBody r act) else s.onBody r act := by
  by_cases h : (s.framework.body r).isWellFormed = true
  · simp only [withFragment, if_pos h]
    show Task.rest ((Task.ofAct _).bind _) = .rest ((Task.ofAct _).bind _)
    congr 2
  · simp only [withFragment, if_neg h]
    show (Task.ofAct _).bind _ = (Task.ofAct _).bind _
    congr 1

/-- So whether a request rests depends on its endpoint and its body. -/
theorem serve_eq (s : Service ρ) (r : Request) (e : Endpoint) :
    s.serve r e = if s.rests r e then .rest (s.entry r e) else s.entry r e := by
  cases e with
  | health => rfl
  | parse => exact s.withFragment_eq r s.parse
  | pending => rfl
  | load => exact s.withFragment_eq r s.load
  | runPending => rfl
  | run => exact s.withFragment_eq r s.run

/-- **How a request is answered**: when it goes on for the first time it enters its endpoint, and
the end of that is turned into a reply. -/
theorem resume_respond (s : Service ρ) {r : Request} {e : Endpoint}
    (h : Address.ofRequest r = .endpoint e) (isOpen : Text → Bool) (reach : Task.Reach)
    (app : App ρ) :
    (s.respond r).resume isOpen reach app
      = ((s.entry r e).attempt.bind (s.conclude r)).work isOpen reach app := by
  rw [s.respond_eq h, serve_eq]
  by_cases hrests : s.rests r e = true
  · rw [if_pos hrests]
    rfl
  · rw [if_neg hrests]
    cases e with
    | pending => exact absurd rfl hrests
    | runPending => exact absurd rfl hrests
    | _ => rfl

/-- A request that leads to no endpoint is answered when it arrives. -/
theorem respond_eq_done (s : Service ρ) {r : Request} (h : ∀ e, Address.ofRequest r ≠ .endpoint e) :
    ∃ reply, s.respond r = .done (.ok reply) := by
  unfold respond
  cases s.framework.preflight? r with
  | some answer => exact ⟨_, rfl⟩
  | none =>
    unfold route
    cases hr : Address.ofRequest r with
    | endpoint e => exact absurd hr (h e)
    | _ => exact ⟨_, rfl⟩

/-! ## Checking bodies -/

section Bodies

variable {β : Type}

/-- A body is checked before anything else is done with it, and in the same turn. -/
theorem onBody_work (s : Service ρ) (r : Request) (act : Text → Task (App ρ) Json)
    (after : Except Failure Response → Task (App ρ) β) (isOpen : Text → Bool)
    (reach : Task.Reach) (app : App ρ) :
    ((s.onBody r act).attempt.bind after).work isOpen reach app =
      ((Task.caught (onFragment r act) after
          ((s.framework.body r).fragment app.settings).result).work isOpen reach
        { app with settings := ((s.framework.body r).fragment app.settings).state }).behind
        ((s.framework.body r).fragment app.settings).trace false := by
  rw [onBody, Task.attempt_bind_bind, Task.work_ofAct_attempt_bind]
  rfl

@[simp] theorem onFragment_ok (r : Request) (act : Text → Task (App ρ) Json) (hash : Text) :
    onFragment r act (.ok hash) = answering (act hash) := rfl

theorem answering_prompt {t : Task (App ρ) Json} (ht : t.Prompt) : (answering t).Prompt :=
  ht.bind fun _ => trivial

theorem answering_keeps {R : App ρ → App ρ → Prop} {t : Task (App ρ) Json} (ht : t.Keeps R) :
    (answering t).Keeps R :=
  ht.bind fun _ => trivial

/-- A body that gives no fragment is answered in one go. -/
theorem onFragment_prompt {r : Request} {act : Text → Task (App ρ) Json}
    {x : Except Body.Refusal Text} (hact : ∀ hash, x = .ok hash → (act hash).Prompt) :
    (onFragment r act x).Prompt := by
  rcases x with (_ | errors) | hash
  · trivial
  · trivial
  · exact answering_prompt (hact hash rfl)

/-- Nothing but the log notices a body that gives no fragment. -/
theorem onFragment_keeps {R : App ρ → App ρ → Prop} {r : Request}
    {act : Text → Task (App ρ) Json} {x : Except Body.Refusal Text}
    (hact : ∀ hash, x = .ok hash → (act hash).Keeps R) : (onFragment r act x).Keeps R := by
  rcases x with (_ | errors) | hash
  · trivial
  · trivial
  · exact answering_keeps (hact hash rfl)

end Bodies

end Service

end Deeplink.Http

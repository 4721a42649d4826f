import Deeplink.Http.Endpoint
import Deeplink.Http.Reply
import Deeplink.Http.Work

/-!
# The service

How a request gets to its endpoint, and how what comes of it becomes a reply (specification, 6 and
7).

- `Http.Service.serve`: what an endpoint does with a request.
- `Http.Service.route`: the response to a request that leads to an endpoint, or to none.
- `Http.Service.respond`: the reply to any request. Errors of the pipeline and bad bodies have
  responses of their own; every other failure is an internal error, unless it escapes.
-/

namespace Deeplink.Http.Service

variable {ρ : Type}

/-- What an endpoint does with the fragment of a body. Requests in flight go on before a body
is checked, unless it is malformed. -/
def withFragment (s : Service ρ) (r : Request) (act : Text → Task (App ρ) Json) :
    Task (App ρ) Response := do
  let body := s.framework.body r
  if body.isWellFormed then .rest (pure ())
  match ← Task.ofAct (App.onSettings body.fragment) with
  | .ok hash => return Response.ofData 200 (← act hash)
  | .error .unreadable => return Response.ofDetail 400 "There was an error parsing the body"
  | .error (.invalid errors) => invalidBody r.shownPath errors

/-- What an endpoint without a body does. Requests in flight go on before it. -/
def withoutBody (t : Task (App ρ) Json) : Task (App ρ) Response :=
  .rest do return Response.ofData 200 (← t)

/-- What an endpoint does with a request. -/
def serve (s : Service ρ) (r : Request) : Endpoint → Task (App ρ) Response
  | .health => Task.ofAct (Act.ofExcept (s.framework.written 200 s.health))
  | .parse => s.withFragment r s.parse
  | .pending => withoutBody s.pending
  | .load => s.withFragment r s.load
  | .runPending => withoutBody s.runPending
  | .run => s.withFragment r s.run

/-- The work of an endpoint, with responses for the errors of the pipeline. -/
def serveSafely (s : Service ρ) (r : Request) (e : Endpoint) : Task (App ρ) Response := do
  match ← (s.serve r e).attempt with
  | .ok response => return response
  | .error failure =>
    match failure.fault with
    | .command error => s.errorResponse r.shownPath error
    | _ => Task.fail failure

/-- The response to a request that is no question asked beforehand. -/
def route (s : Service ρ) (r : Request) : Task (App ρ) Response :=
  match Address.ofRequest r with
  | .endpoint e => s.serveSafely r e
  | .wrongMethod allowed =>
    pure ((Response.ofDetail 405 "Method Not Allowed").withHeader "allow" allowed)
  | .elsewhere location => pure ⟨307, [("location", location)], .empty⟩
  | .nowhere => pure (Response.ofDetail 404 "Not Found")

/-- The reply to a request. What escapes has none. -/
def respond (s : Service ρ) (r : Request) : Task (App ρ) Reply :=
  match s.framework.preflight? r with
  | some answer => pure ⟨answer, none⟩
  | none => do
    match ← (s.route r).attempt with
    | .ok response => return ⟨s.framework.share r response, none⟩
    | .error e =>
      match e.escaping? with
      | some escaping => Task.fail escaping
      | none => internalError r.shownPath e

end Deeplink.Http.Service

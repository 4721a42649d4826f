import Deeplink.Http.Service

/-!
# Requests in flight

A request may be suspended while others are answered. Then the others go on when it pauses, when
it rests, or when a gate is closed.

- `Http.Flight`: a request in flight, and the name under which its reply can be asked for.
- `Http.Server`: the application, the gates that are open, and the requests in flight in the order
  in which they were started.
- `Http.Server.resumeFlights`: goes on with the requests in flight. Those that rest go on only
  when no other can.
- `Http.Server.settle`: work that has to end.
- `Http.Server.start`, `Http.Server.finish`: the two ends of a request in flight.
-/

namespace Deeplink.Http

/-- A request in flight. It loses its name if another one is started under it. -/
structure Flight (ρ : Type) where
  name : Option Text
  task : Task (App ρ) Reply

structure Server (ρ : Type) where
  app : App ρ
  gates : List Text := []
  inFlight : List (Flight ρ) := []

namespace Server

variable {ρ α : Type}

/-! ## Requests in flight -/

/-- Goes on with a request; the result says whether it has come to a gate. -/
def resumeFlight (reach : Task.Reach) (f : Flight ρ) : Act (Server ρ) (Flight ρ × Bool) :=
  fun s =>
    let p := f.task.resume (· ∈ s.gates) reach s.app
    ⟨.ok ({ f with task := p.task }, p.cameToGate), { s with app := p.state }, p.trace⟩

/-- Goes on with those requests of a list that rest, or with those that do not. -/
def resumeAll (reach : Task.Reach) (resting : Bool) :
    List (Flight ρ) → Act (Server ρ) (List (Flight ρ) × Bool)
  | [] => pure ([], false)
  | f :: rest => do
    let (f, cameToGate) ←
      if f.task.isResting = resting then resumeFlight reach f else pure (f, false)
    let (rest, others) ← resumeAll reach resting rest
    return (f :: rest, cameToGate || others)

/-- Goes on with the requests in flight that rest, or with those that do not; the result says
whether one of them has come to a gate. -/
def resumeFlights (reach : Task.Reach) (resting : Bool) : Act (Server ρ) Bool := do
  let (left, cameToGate) ← resumeAll reach resting (← Act.get).inFlight
  Act.modify fun s => { s with inFlight := left }
  return cameToGate

/-- Each request in flight that does not rest takes a turn. -/
def takeTurns : Act (Server ρ) Bool := resumeFlights .turn false

/-- The requests in flight go on as far as they can. -/
def advance : Act (Server ρ) Unit := do
  let _ ← resumeFlights .far false
  let _ ← resumeFlights .far true
  return ()

/-! ## Work that has to end -/

/-- The failure of work that waits at a closed gate but has to end. -/
def stalled : Failure := Failure.of (.raised .runtime "a gate is closed")

/-- The result of a task that has to end. -/
def settle : Task (App ρ) α → Act (Server ρ) α
  | .done r => Act.ofExcept r
  | .act change next => fun s => settle (next s.app) { s with app := change s.app }
  | .emit x next => do
    Act.emit x
    settle next
  | .pause next => do
    let _ ← takeTurns
    settle next
  | .rest next => do
    advance
    settle next
  | .wait gate next => do
    if gate ∈ (← Act.get).gates then settle next
    else
      advance
      Act.fail stalled

/-- An act of the application. -/
def onApp (x : Act (App ρ) α) : Act (Server ρ) α :=
  x.focus Server.app fun app s => { s with app }

/-- An act on the desk. -/
def onDesk (x : Act (Desk ρ) α) : Act (Server ρ) α :=
  onApp (x.focus App.desk fun desk app => { app with desk })

/-- Opens a gate for good. -/
def openGate (gate : Text) : Act (Server ρ) Unit :=
  Act.modify fun s => { s with gates := gate :: s.gates }

/-! ## Requests -/

/-- Answers a request. -/
def answer (service : Service ρ) (r : Request) : Act (Server ρ) Reply :=
  settle (service.respond r)

/-- What is left of a new request when it has ended, or when a request has come to a gate: itself
or another one, `cameToGate` before its turn. -/
def launch (cameToGate : Bool) : Task (App ρ) Reply → Act (Server ρ) (Task (App ρ) Reply)
  | .done r => pure (.done r)
  | .act change next => fun s =>
    launch cameToGate (next s.app) { s with app := change s.app }
  | .emit x next => do
    Act.emit x
    launch cameToGate next
  | .pause next => do
    if cameToGate then return .pause next
    launch (← takeTurns) next
  | .rest next => do
    if cameToGate then return .rest next
    if ← resumeFlights .gate false then return .rest next
    if ← resumeFlights .gate true then return .rest next
    launch false next
  | .wait gate next => do
    if gate ∈ (← Act.get).gates then launch true next else return .wait gate next

/-- Takes a name from the request that has it. -/
def release (name : Text) (fs : List (Flight ρ)) : List (Flight ρ) :=
  fs.map fun f => if f.name = some name then { f with name := none } else f

/-- Starts a request under a name. The result is whether it has ended already. -/
def start (service : Service ρ) (name : Text) (r : Request) : Act (Server ρ) Bool := do
  let t ← launch (← takeTurns) (service.respond r)
  Act.modify fun s => { s with inFlight := release name s.inFlight ++ [⟨some name, t⟩] }
  return t.result?.isSome

/-- The task of a name. -/
def task? (name : Text) (s : Server ρ) : Option (Task (App ρ) Reply) :=
  (s.inFlight.find? (·.name = some name)).map (·.task)

/-- How the request of a name has ended, if it has. -/
def result? (name : Text) (s : Server ρ) : Option (Except Failure Reply) :=
  (s.task? name).bind Task.result?

/-- Goes on until the request of a name has ended, or as far as possible. -/
def await (name : Text) : Act (Server ρ) Unit := do
  if ((← Act.get).result? name).isNone then
    let _ ← resumeFlights .far false
  if ((← Act.get).result? name).isNone then
    let _ ← resumeFlights .far true

/-- The reply to a request in flight; it can be asked for once. -/
def finish (name : Text) : Act (Server ρ) Reply := do
  if ((← Act.get).task? name).isNone then Act.fail (Failure.of (.raised .key name))
  else
    await name
    let result := (← Act.get).result? name
    Act.modify fun s => { s with inFlight := release name s.inFlight }
    match result with
    | some result => Act.ofExcept result
    | none => Act.fail stalled

end Server

end Deeplink.Http

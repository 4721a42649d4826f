import Deeplink.Act

/-!
# Tasks

A task is work on a state that can be suspended: between two suspensions it is
uninterrupted, and while it is suspended others may change the state.

- `Task`: settled, or a change of the state, a signal or a suspension, and then more.
- `Task.ofAct`: an act as a task without suspension.
- `Task.attempt`, `Task.ensuring`: catching failures, and cleaning up after any end.
- `Task.focus`: a task on a part of the state.
- `Task.Reach`: how far a task is taken: for one turn, up to a gate, or to its end.
- `Task.work`, `Task.resume`: the work of a new task, and that of a suspended one.
-/

namespace Deeplink

/-- Work that can be suspended. `act` changes the state and goes on as the old state says;
`pause` lets others take a turn; `rest` lets others go on as far as they can; `wait` needs its
gate to be open. -/
inductive Task (σ α : Type) where
  | done (result : Except Failure α)
  | act (change : σ → σ) (next : σ → Task σ α)
  | emit (signal : Signal) (next : Task σ α)
  | pause (next : Task σ α)
  | rest (next : Task σ α)
  | wait (gate : Text) (next : Task σ α)

namespace Task

variable {σ τ α β : Type}

/-! ## The monad -/

/-- One task after the other; the second does not start if the first fails. -/
def bind (t : Task σ α) (f : α → Task σ β) : Task σ β :=
  match t with
  | .done (.ok a) => f a
  | .done (.error e) => .done (.error e)
  | .act change next => .act change fun s => (next s).bind f
  | .emit x next => .emit x (next.bind f)
  | .pause next => .pause (next.bind f)
  | .rest next => .rest (next.bind f)
  | .wait gate next => .wait gate (next.bind f)

instance : Monad (Task σ) where
  pure a := .done (.ok a)
  bind := bind

/-! ## Operations -/

/-- Ends with a failure. -/
def fail (e : Failure) : Task σ α := .done (.error e)

/-- Shows signals before a task. -/
def emitAll (xs : List Signal) (t : Task σ α) : Task σ α := xs.foldr .emit t

/-- An act, uninterrupted. -/
def ofAct (x : Act σ α) : Task σ α :=
  .act (fun s => (x s).state) fun s => emitAll (x s).trace (.done (x s).result)

/-- Shows a signal. -/
def signal (x : Signal) : Task σ Unit := .emit x (.done (.ok ()))

/-- The state. -/
def get : Task σ σ := .act id fun s => .done (.ok s)

/-- Changes the state. -/
def modify (f : σ → σ) : Task σ Unit := .act f fun _ => .done (.ok ())

/-- Never fails: a failure becomes the result. -/
def attempt : Task σ α → Task σ (Except Failure α)
  | .done r => .done (.ok r)
  | .act change next => .act change fun s => (next s).attempt
  | .emit x next => .emit x next.attempt
  | .pause next => .pause next.attempt
  | .rest next => .rest next.attempt
  | .wait gate next => .wait gate next.attempt

/-- Cleans up after a task, however it ends. -/
def ensuring (t : Task σ α) (cleanup : σ → σ) : Task σ α :=
  t.attempt.bind fun r => .act cleanup fun _ => .done r

/-- Works on a part of the state. -/
def focus (part : τ → σ) (put : σ → τ → τ) : Task σ α → Task τ α
  | .done r => .done r
  | .act change next =>
    .act (fun t => put (change (part t)) t) fun t => (next (part t)).focus part put
  | .emit x next => .emit x (next.focus part put)
  | .pause next => .pause (next.focus part put)
  | .rest next => .rest (next.focus part put)
  | .wait gate next => .wait gate (next.focus part put)

/-! ## Running -/

/-- How far a task has come: what is left of it, the state, what it has shown, and whether it has
come to a gate. -/
structure Progress (σ α : Type) where
  task : Task σ α
  state : σ
  trace : List Signal
  cameToGate : Bool

/-- How far a task is taken, if no closed gate holds it: to its next suspension; to the
suspension after it has come to a gate, or to a rest before; or to its end. -/
inductive Reach where
  | turn
  | gate
  | far
  deriving DecidableEq

/-- The work of a task as far as it is taken. -/
def work (isOpen : Text → Bool) (reach : Reach) : Task σ α → σ → Progress σ α
  | .done r, s => ⟨.done r, s, [], false⟩
  | .act change next, s => (next s).work isOpen reach (change s)
  | .emit x next, s =>
    let p := next.work isOpen reach s
    { p with trace := x :: p.trace }
  | .pause next, s =>
    if reach = .turn then ⟨.pause next, s, [], false⟩ else next.work isOpen reach s
  | .rest next, s =>
    if reach = .far then next.work isOpen reach s else ⟨.rest next, s, [], false⟩
  | .wait gate next, s =>
    if isOpen gate then
      { next.work isOpen (if reach = .gate then .turn else reach) s with cameToGate := true }
    else ⟨.wait gate next, s, [], true⟩

/-- The work of a suspended task. Only a closed gate holds it where it is. -/
def resume (isOpen : Text → Bool) (reach : Reach) (t : Task σ α) (s : σ) : Progress σ α :=
  match t with
  | .pause next => next.work isOpen reach s
  | .rest next => next.work isOpen reach s
  | .wait gate next =>
    if isOpen gate then next.work isOpen reach s else ⟨.wait gate next, s, [], false⟩
  | t => t.work isOpen reach s

/-- Whether a task has come to a rest. -/
def isResting : Task σ α → Bool
  | .rest _ => true
  | _ => false

/-- The result of a task that has settled. -/
def result? : Task σ α → Option (Except Failure α)
  | .done r => some r
  | _ => none

end Task

end Deeplink

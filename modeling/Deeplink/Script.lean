import Deeplink.Command.Access
import Deeplink.Host

/-!
# Scripted handlers

Handlers that are lists of actions, so that what a service does with its handlers can be
watched.

- `Action`: one thing that a handler does.
- `Script`: the actions of a handler and its result.
- `Script.play`: calls a handler; it shows its call, what it does and its end.
- `Safety`, `Memory`: which commands of the scripted families are safe; this can change.
- `Script.callAt`: how scripts are called that may themselves run commands, to a depth.
-/

namespace Deeplink

/-! ## Actions -/

inductive Action where
  | say (text : Text)
  | raise (e : Failure)
  | get (key : Text)
  | setArgument (key : Text)
  | current
  | pending
  | load (hash : Option Text)
  | allow (method name : Text)
  | deny (method name : Text)
  | register (name : Text) (isSafe : Bool) (actions : List Action) (result : Json)
  | unregister (name : Text)
  | route (name : Text) (handler : Option (List Action × Json))
  | pause
  | wait (gate : Text)
  | run (hash : Option Text)
  | runOnce
  | navigate (name : Text)

/-- A handler: what it is called in events, what it does and its result. -/
structure Script where
  label : List Text
  actions : List Action
  result : Json

/-- Which commands of a family are safe: all, those that are listed, or the check fails. -/
inductive Safety where
  | every
  | among (names : List Text)
  | failing (e : Failure)

/-- The safe commands by methods. -/
abbrev Memory := List (Text × Safety)

/-- The host of scripts. -/
abbrev Stage := Host Script Memory

namespace Safety

/-- One more safe command, if they are listed. -/
def allow (name : Text) : Safety → Safety
  | .among names => .among (if name ∈ names then names else names ++ [name])
  | s => s

/-- One safe command less, if they are listed. -/
def deny (name : Text) : Safety → Safety
  | .among names => .among (names.filter (· ≠ name))
  | s => s

/-- Whether a command is safe. -/
def check (name : Text) : Safety → Act Stage Bool
  | .every => pure true
  | .among names => pure (name ∈ names)
  | .failing e => Act.fail e

end Safety

namespace Memory

/-- Changes the safe commands of a method, if there is such a family. -/
def update (method : Text) (f : Safety → Safety) (m : Memory) : Memory :=
  m.map fun (name, s) => if name = method then (name, f s) else (name, s)

end Memory

namespace Action

/-! ## Acts -/

/-- Shows an event. -/
def tell {σ : Type} (e : Event) : Act σ Unit := Act.emit (.event e)

/-- Changes the host. -/
def change (f : Stage → Stage) : Act (Desk Stage) Unit :=
  Desk.onHost (Act.modify f)

/-- Arguments cannot be changed. -/
def readOnly : Failure :=
  Failure.of (.raised .type Command.AccessFault.readOnlyArguments.message)

/-- An argument, shown. -/
def showArgument (args : Args) (key : Text) : Act (Desk Stage) Unit :=
  match Json.member? key args with
  | some v => tell (.got v)
  | none => Act.fail (Failure.of (.raised .key key))

/-- A registered command whose handler is a script. -/
def registration (name : Text) (isSafe : Bool) (actions : List Action) (result : Json) :
    Registration Script :=
  { handler := { label := [name], actions, result }
    isSafe }

/-- What an action does at once, if it neither waits nor runs anything. -/
def act (d : Dispatcher Stage) (args : Args) : Action → Act (Desk Stage) Unit
  | .say text => tell (.said text)
  | .raise e => Act.fail e
  | .get key => showArgument args key
  | .setArgument _ => Act.fail readOnly
  | .current => do
    let routes := (← Act.get).host.routes
    tell (.routed routes.current routes.history)
  | .pending => do tell (.held (← Act.get).pending)
  | .load hash => do
    let _ ← d.load hash
    return ()
  | .allow method name =>
    change fun h => { h with memory := Memory.update method (Safety.allow name) h.memory }
  | .deny method name =>
    change fun h => { h with memory := Memory.update method (Safety.deny name) h.memory }
  | .register name isSafe actions result =>
    change fun h =>
      { h with registry := h.registry.register name (registration name isSafe actions result) }
  | .unregister name => change fun h => { h with registry := h.registry.unregister name }
  | .route name handler =>
    let script := handler.map fun (actions, result) => Script.mk [name] actions result
    change fun h => { h with routes := h.routes.register name script }
  | _ => pure ()

/-! ## Tasks -/

/-- Shows how many commands have been run. -/
def showCount (t : Task (Desk Stage) Nat) : Task (Desk Stage) Unit := do
  let count ← t
  Task.signal (.event (.nested count))

/-- What an action does. -/
def perform (d : Dispatcher Stage) (call : Host.Call Script Memory) (args : Args) :
    Action → Task (Desk Stage) Unit
  | .pause => .pause (pure ())
  | .wait gate => .wait gate (pure ())
  | .run hash => showCount (d.runFragment hash)
  | .runOnce => showCount d.runOnce
  | .navigate name => do
    let _ ← Host.navigate call name args
    return ()
  | a => Task.ofAct (a.act d args)

/-- What actions do, one after the other. -/
def performAll (d : Dispatcher Stage) (call : Host.Call Script Memory) (args : Args) :
    List Action → Task (Desk Stage) Unit
  | [] => pure ()
  | a :: rest => do
    a.perform d call args
    performAll d call args rest

end Action

namespace Script

/-- Calls a handler. -/
def play (d : Dispatcher Stage) (call : Host.Call Script Memory) (s : Script) (args : Args) :
    Task (Desk Stage) Json := do
  Task.signal (.event (.called s.label args))
  Action.performAll d call args s.actions
  Task.signal (.event (.finished s.label))
  return s.result

/-- The failure of calls that go too deep. -/
def tooDeep : Failure := Failure.of (.raised .recursion "maximum recursion depth exceeded")

/-- How scripts are called: those that run commands do so with the dispatcher that is built
around calls of one level less. -/
def callAt (build : Host.Call Script Memory → Dispatcher Stage) :
    Nat → Host.Call Script Memory
  | 0, _, _ => Task.fail tooDeep
  | depth + 1, s, args => s.play (build (callAt build depth)) (callAt build depth) args

end Script

end Deeplink

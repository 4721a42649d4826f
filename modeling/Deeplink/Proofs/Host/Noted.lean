import Deeplink.Host
import Deeplink.Proofs.Dispatch.Shadows
import Deeplink.Proofs.Task.Transfer

/-!
# Noted handlers

Which handlers the standard families call, with what, and how the calls end, written down call by
call. A handler may do anything to the host, but it cannot reach what is written down.

- `Host.Invocation`: the call of a handler of a command or of a route.
- `Host.Event`: a call begins, or it ends.
- `Host.Noted`: a memory, and the events so far, the oldest first.
- `Host.runFound`, `Host.visitFound`: what is done with what a name is found to be registered with.
- `Host.noting`: calls a handler and notes it.
- `Host.noted`: the standard dispatcher whose handlers are noted.
- `Host.noted_shadows`: it does what the standard dispatcher does, to the host and to the outside.
-/

namespace Deeplink.Host

variable {η μ : Type}

/-! ## Events -/

/-- Whose handler is called. -/
inductive Kind where
  | command
  | route
  deriving DecidableEq

/-- The call of a handler. -/
structure Invocation (η : Type) where
  kind : Kind
  name : Text
  handler : η
  args : Args

/-- What is written down about a call. -/
inductive Event (η : Type) where
  | began (i : Invocation η)
  | ended (i : Invocation η) (r : Except Failure Json)

/-- A memory, and the events so far. -/
structure Noted (η μ : Type) where
  memory : μ
  events : List (Event η) := []

/-- The host without the events. -/
def forget (h : Host η (Noted η μ)) : Host η μ := ⟨h.registry, h.routes, h.memory.memory⟩

/-- A host with the events that another one has. -/
def remember (h : Host η μ) (noted : Host η (Noted η μ)) : Host η (Noted η μ) :=
  ⟨h.registry, h.routes, ⟨h.memory, noted.memory.events⟩⟩

/-- A desk with the events that another one has. -/
def rememberOn (desk : Desk (Host η μ)) (noted : Desk (Host η (Noted η μ))) :
    Desk (Host η (Noted η μ)) :=
  ⟨desk.pending, remember desk.host noted.host⟩

/-- The events on a desk. -/
def events (desk : Desk (Host η (Noted η μ))) : List (Event η) := desk.host.memory.events

/-- One more event on a desk. -/
def note (event : Event η) (desk : Desk (Host η (Noted η μ))) : Desk (Host η (Noted η μ)) :=
  { desk with host := { desk.host with
      memory := { desk.host.memory with events := desk.host.memory.events ++ [event] } } }

@[simp] theorem events_note (event : Event η) (desk : Desk (Host η (Noted η μ))) :
    events (note event desk) = events desk ++ [event] := rfl

@[simp] theorem seen_note (event : Event η) (desk : Desk (Host η (Noted η μ))) :
    Desk.seen forget (note event desk) = Desk.seen forget desk := rfl

/-- The host without its notes is a part of the desk: to work on that part leaves the notes. -/
theorem isPart : Task.IsPart (Desk.seen (forget (η := η) (μ := μ))) rememberOn where
  part_put _ _ := rfl
  put_part _ := rfl
  put_put _ _ _ := rfl

/-! ## The standard dispatcher -/

/-- The standard families with a sink. -/
def standard (call : Call η μ) (s : Settings) (sink : Option (Sink (Host η μ))) :
    Dispatcher (Host η μ) :=
  ⟨standardTable call s, sink⟩

/-- What is done with the registration that the name of a command has, if any. -/
def runFound (call : Call η μ) (name : Text) (args : Args) :
    Option (Registration η) → Task (Desk (Host η μ)) Json
  | none => Task.fail (unknown "Command" name)
  | some r => (Task.signal (inform "Running command" name)).bind fun _ => call r.handler args

/-- A command is looked up before anything else is done, so its handler is called as found. -/
theorem runCommand_eq (call : Call η μ) (name : Text) (args : Args) :
    runCommand call name args
      = Task.get.bind fun desk => runFound call name args (desk.host.registry.get? name) := rfl

/-- What is done with the entry that a route has, if any. -/
def visitFound (call : Call η μ) (name : Text) (args : Args) :
    Option (Option η) → Task (Desk (Host η μ)) Json
  | none => Task.fail (unknown "Route" name)
  | some handler => (visit call handler args).bind fun v =>
    (Task.modify (updateRoutes (RouteTable.arrive name))).bind fun _ =>
    (Task.signal (inform "Navigated to route" name)).bind fun _ => .done (.ok v)

/-- A route is looked up before anything else is done, so its handler is called as found. -/
theorem navigate_eq (call : Call η μ) (name : Text) (args : Args) :
    navigate call name args
      = Task.get.bind fun desk => visitFound call name args (desk.host.routes.get? name) := rfl

/-- Calls a handler and notes it. -/
def noting (call : Call η μ) (kind : Kind) (name : Text) : Call η (Noted η μ) :=
  fun handler args =>
    let i : Invocation η := ⟨kind, name, handler, args⟩
    (Task.modify (note (.began i))).bind fun _ =>
      ((call handler args).focus (Desk.seen forget) rememberOn).attempt.bind fun r =>
        .act (note (.ended i r)) fun _ => .done r

/-- The commands of a registry, noted. -/
def notedCommands (call : Call η μ) : Family (Host η (Noted η μ)) :=
  { run := fun name => runCommand (noting call .command name) name
    isSafe := isSafeCommand }

/-- The routes of a table, noted. -/
def notedRoutes (call : Call η μ) : Family (Host η (Noted η μ)) :=
  { run := fun name => navigate (noting call .route name) name
    isSafe := fun _ => pure true }

/-- The standard dispatcher whose handlers are noted. -/
def noted (call : Call η μ) (s : Settings) (sink : Option (Sink (Host η μ))) :
    Dispatcher (Host η (Noted η μ)) :=
  { table := Table.set s.routeMethod (notedRoutes call) [(s.runMethod, notedCommands call)]
    sink := sink.map fun tell diagnostic => (tell diagnostic).focus forget remember }

/-- Handlers that do nothing. -/
def idle : Call Unit Unit := fun _ _ => .done (.ok .null)

/-! ## What is noted is not changed -/

section Shadows

/-- Seen without the notes, a handler that is noted does what it does by itself. -/
theorem noting_shadows (call : Call η μ) (kind : Kind) (name : Text) (handler : η) (args : Args) :
    Task.Shadows (Desk.seen forget) (noting call kind name handler args) (call handler args) := by
  refine .hidden (fun _ => rfl) fun _ => ?_
  exact (Task.Shadows.focus isPart (call handler args)).noted fun _ _ => rfl

/-- Seen without the notes, the family of commands does what it does by itself. -/
theorem notedCommands_shadows (call : Call η μ) :
    (notedCommands call).Shadows forget (commandFamily call) where
  run := by
    intro name args
    refine .get_bind fun desk => ?_
    show Task.Shadows _ (runFound _ name args (desk.host.registry.get? name))
      (runFound call name args (desk.host.registry.get? name))
    cases desk.host.registry.get? name with
    | none => exact .done _
    | some r => exact .emit _ (noting_shadows call .command name r.handler args)
  isSafe := fun _ _ => ⟨rfl, rfl, rfl⟩

/-- Seen without the notes, the family of routes does what it does by itself. -/
theorem notedRoutes_shadows (call : Call η μ) :
    (notedRoutes call).Shadows forget (routeFamily call) where
  run := by
    intro name args
    refine .get_bind fun desk => ?_
    show Task.Shadows _ (visitFound _ name args (desk.host.routes.get? name))
      (visitFound call name args (desk.host.routes.get? name))
    cases desk.host.routes.get? name with
    | none => exact .done _
    | some handler =>
      refine .bind ?_ fun v => .act (fun _ => rfl) fun _ => .emit _ (.done _)
      cases handler with
      | none => exact .done _
      | some handler => exact noting_shadows call .route name handler args
  isSafe := fun _ _ => ⟨rfl, rfl, rfl⟩

/-- **Noting the handlers changes nothing else.** -/
theorem noted_shadows (call : Call η μ) (s : Settings) (sink : Option (Sink (Host η μ))) :
    (noted call s sink).Shadows forget (standard call s sink) where
  table := Table.Shadows.set (.cons (notedCommands_shadows call) .nil) s.routeMethod
    (notedRoutes_shadows call)
  sink := by
    cases sink with
    | none => exact .none
    | some tell => exact .some fun _ _ => ⟨rfl, rfl, rfl⟩

end Shadows

end Deeplink.Host

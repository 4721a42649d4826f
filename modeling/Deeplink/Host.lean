import Deeplink.Dispatch
import Deeplink.Registry
import Deeplink.RouteTable

/-!
# The standard families

A host keeps a registry of commands and a table of routes; two families give fragments access to
them. The table is that of `build_default_dispatchers` (specification, 6).

- `Host`: the registry, the routes, and a memory of the handlers.
- `Host.runCommand`: runs a registered command.
- `Host.navigate`: calls the handler of a route, and then arrives there.
- `Host.standardTable`: the two families, under the methods that the settings name. Commands
  are safe if the registry says so when they are checked; routes are always safe.
-/

namespace Deeplink

/-- What the handlers of a service share. -/
structure Host (η μ : Type) where
  registry : Registry η := {}
  routes : RouteTable η := {}
  memory : μ

namespace Host

variable {η μ : Type}

/-- How a handler is called. -/
abbrev Call (η μ : Type) := η → Args → Task (Desk (Host η μ)) Json

/-- An informing notice about a command or a route. -/
def inform (before name : Text) : Signal :=
  .notice {
    level := .info
    source := .registry
    message := before ++ " `" ++ name ++ "`"
    context := { command := some name } }

/-- The failure for a name that is not registered. -/
def unknown (resourceType name : Text) : Failure :=
  Failure.ofCommand (.notFound resourceType name) {}

/-! ## Commands -/

/-- Runs a registered command. -/
def runCommand (call : Call η μ) (name : Text) (args : Args) : Task (Desk (Host η μ)) Json := do
  let desk ← Task.get
  match desk.host.registry.get? name with
  | none => Task.fail (unknown "Command" name)
  | some r => do
    Task.signal (inform "Running command" name)
    call r.handler args

/-- Whether the registry says that a command is safe, at the time of the check. -/
def isSafeCommand (name : Text) : Act (Host η μ) Bool := do
  return (← Act.get).registry.isSafe name

def commandFamily (call : Call η μ) : Family (Host η μ) :=
  { run := runCommand call
    isSafe := isSafeCommand }

/-! ## Routes -/

/-- Changes the table of routes. -/
def updateRoutes (f : RouteTable η → RouteTable η) (desk : Desk (Host η μ)) :
    Desk (Host η μ) :=
  { desk with host := { desk.host with routes := f desk.host.routes } }

/-- The result of the handler of a route; without a handler there is none. -/
def visit (call : Call η μ) (handler : Option η) (args : Args) : Task (Desk (Host η μ)) Json :=
  match handler with
  | none => pure .null
  | some h => call h args

/-- Calls the handler of a registered route, and then arrives there. -/
def navigate (call : Call η μ) (name : Text) (args : Args) : Task (Desk (Host η μ)) Json := do
  let desk ← Task.get
  match desk.host.routes.get? name with
  | none => Task.fail (unknown "Route" name)
  | some handler => do
    let result ← visit call handler args
    Task.modify (updateRoutes (RouteTable.arrive name))
    Task.signal (inform "Navigated to route" name)
    return result

def routeFamily (call : Call η μ) : Family (Host η μ) :=
  { run := navigate call
    isSafe := fun _ => pure true }

/-! ## The table -/

/-- The two families. If the settings give both the same method, the routes have it. -/
def standardTable (call : Call η μ) (s : Settings) : Table (Host η μ) :=
  Table.set s.routeMethod (routeFamily call) [(s.runMethod, commandFamily call)]

end Host

end Deeplink

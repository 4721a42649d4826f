import Deeplink.Http.Lifetime
import Deeplink.Scenario.Plan

/-!
# Steps of scenarios

- `Scenario.Step`: what can be asked of a dispatcher, of its host and of its service.
- `Scenario.Answer`: what a step is answered.
- `Scenario.take`: the answer to a step, and the state after it. A step that fails may have
  changed the state.
-/

namespace Deeplink.Scenario

inductive Step where
  | parse (hash : Option Text)
  | load (hash : Option Text)
  | methods
  | validate (commands : Option (List Command))
  | runPending
  | runFragment (hash : Option Text)
  | runCommands (commands : List Command)
  | runOnce
  | addMethod (method : Text)
  | info (name : Text)
  | isSafe (name : Text)
  | runRegistered (name : Text) (args : Args)
  | isRegistered (name : Text)
  | navigate (name : Text) (args : Args)
  | routes
  | setVariables (pairs : List (Text × Text))
  | unsetVariables (names : List Text)
  | clearSettings
  | action (a : Action)
  | request (r : Http.Request)
  | start (name : Text) (r : Http.Request)
  | openGate (gate : Text)
  | finish (name : Text)
  | isBusy
  | live

/-- The answer to a step. -/
inductive Answer where
  | nothing
  | commands (cs : List Command)
  | names (ts : List Text)
  | count (n : Nat)
  | flag (b : Bool)
  | info (found : Option (Text × Bool))
  | value (v : Json)
  | routes (current : Option Text) (history : List Text)
  | reply (r : Http.Reply)
  | started (ended : Bool)
  | lived (level : Int) (form : Option Log.Form)

/-! ## Taking steps -/

/-- Work on the desk that has to end. -/
def settle {α : Type} (t : Task (Desk Stage) α) : Act State α :=
  onServer (Http.Server.settle (Http.App.onDesk t))

/-- The host. -/
def host : Act State Stage := onHost Act.get

/-- Changes the settings. -/
def changeSettings (f : Settings.Store → Settings.Store) : Act State Answer := do
  onApp (Http.App.onSettings (Act.modify f))
  return .nothing

/-- The life of the service: its start and its end. The answer says how it logs. -/
def live (service : Http.Service Stage) : Act State Answer := do
  onApp service.startUp
  onApp Http.Service.shutDown
  let root := (← onApp Act.get).root
  return .lived root.level root.form?

/-- Takes a step. -/
def take (setting : Setting) (step : Step) : Act State Answer :=
  let service := setting.service
  let d := service.dispatcher
  match step with
  | .parse hash => do return .commands (← onHost (d.parse hash))
  | .load hash => do return .commands (← onDesk (d.load hash))
  | .methods => return .names (Text.sorted d.methods)
  | .validate commands => do
    let pending := (← onDesk Act.get).pending
    onHost (d.validate (commands.getD pending))
    return .nothing
  | .runPending => do return .count (← settle d.runPending)
  | .runFragment hash => do return .count (← settle (d.runFragment hash))
  | .runCommands commands => do return .count (← settle (d.run commands))
  | .runOnce => do return .count (← settle d.runOnce)
  | .addMethod method => do
    Act.modify fun s =>
      { s with methods := if method ∈ s.methods then s.methods else s.methods ++ [method] }
    return .names (Text.sorted (← Act.get).methods)
  | .info name => do
    return .info (((← host).registry.get? name).map fun r => (name, r.isSafe))
  | .isSafe name => do return .flag ((← host).registry.isSafe name)
  | .runRegistered name args => do
    return .value (← settle (Host.runCommand setting.call name args))
  | .isRegistered name => do return .flag ((← host).routes.isRegistered name)
  | .navigate name args => do
    return .value (← settle (Host.navigate setting.call name args))
  | .routes => do
    let routes := (← host).routes
    return .routes routes.current routes.history
  | .setVariables pairs => changeSettings (Settings.Store.setVariables pairs)
  | .unsetVariables names => changeSettings (Settings.Store.unsetVariables names)
  | .clearSettings => changeSettings Settings.Store.clear
  | .action a => do
    onDesk (a.act d [])
    return .nothing
  | .request r => do return .reply (← onServer (Http.Server.answer service r))
  | .start name r => do return .started (← onServer (Http.Server.start service name r))
  | .openGate gate => do
    onServer (Http.Server.openGate gate)
    return .nothing
  | .finish name => do return .reply (← onServer (Http.Server.finish name))
  | .isBusy => do return .flag (← onApp Act.get).isBusy
  | .live => live service

end Deeplink.Scenario

import Deeplink.Http.Server
import Deeplink.Script.Family

/-!
# Plans of scenarios

A scenario sets up a dispatcher with scripted handlers, or a whole service around one.

- `Scenario.Mode`: which table the dispatcher has, and whether there is a service around it.
- `Scenario.Plan`: a scenario before its first step.
- `Scenario.build`: what a scenario works with; bad settings leave nothing to work with.
- `Scenario.opening`: what happens before the first step.
-/

namespace Deeplink.Scenario

/-! ## Plans -/

/-- The dispatcher has a scripted table, or the standard one; a service has the standard table
unless it is given another. -/
inductive Mode where
  | scripted (families : List ScriptedFamily)
  | standard
  | service (families : Option (List ScriptedFamily))

/-- What is done with diagnostics: they are logged, collected, or collected and then refused. -/
inductive Collecting where
  | no
  | yes
  | failing
  deriving DecidableEq

/-- The sink of a scenario. -/
def Collecting.sink {σ : Type} : Collecting → Option (Sink σ)
  | .no => none
  | .yes => some fun d => Act.emit (.diagnostic d)
  | .failing => some fun d => do
    Act.emit (.diagnostic d)
    Act.fail (Failure.of (.raised .runtime "sink down"))

/-- A scenario before its first step. -/
structure Plan where
  mode : Mode
  environment : List (Text × Text)
  hash : Option Text
  collecting : Collecting
  now : Text

/-! ## Settings and states -/

/-- What does not change in the course of a scenario. -/
structure Setting where
  call : Host.Call Script Memory
  service : Http.Service Stage

/-- The state of a scenario: the server, and the methods of the mapping that the table of the
dispatcher was copied from. -/
structure State where
  server : Http.Server Stage
  methods : List Text

/-- How deep handlers may run commands that run commands. -/
def depth : Nat := 333

/-- What a dispatcher with the given table is. -/
def settingOf (table : Host.Call Script Memory → Table Stage) (sink : Option (Sink Stage))
    (origins : List Text) (now : Text) : Setting :=
  let build := fun call => Dispatcher.mk (table call) sink
  let call := Script.callAt build depth
  { call
    service := { dispatcher := build call, framework := .standard ⟨origins⟩, now } }

/-- The state before the first step. -/
def stateOf (setting : Setting) (memory : Memory) (settings : Settings.Store) : State :=
  { server := { app := { desk := ⟨[], { memory }⟩, settings } }
    methods := setting.service.dispatcher.methods }

/-- Reads the settings, which a service and the standard table depend on. -/
def withSettings (store : Settings.Store)
    (f : Settings → Settings.Store → Setting × State) : Except Failure (Setting × State) :=
  match store.get with
  | (.ok (s, _), after) => .ok (f s after)
  | (.error fault, _) => .error (Failure.ofSettings fault)

/-- The setting and the state of a plan. -/
def build (p : Plan) : Except Failure (Setting × State) :=
  let store := Settings.Store.setVariables p.environment {}
  match p.mode with
  | .scripted families =>
    let setting :=
      settingOf (ScriptedFamily.table · families) p.collecting.sink [] p.now
    .ok (setting, stateOf setting (ScriptedFamily.memory families) store)
  | .standard =>
    withSettings store fun s after =>
      let setting := settingOf (Host.standardTable · s) p.collecting.sink [] p.now
      (setting, stateOf setting [] after)
  | .service families =>
    withSettings store fun s after =>
      let table := match families with
        | none => (Host.standardTable · s)
        | some fs => (ScriptedFamily.table · fs)
      let setting := settingOf table none s.corsOrigins p.now
      (setting, stateOf setting (ScriptedFamily.memory (families.getD [])) after)

/-! ## Parts of a state -/

/-- An act of the server. -/
def onServer {α : Type} (x : Act (Http.Server Stage) α) : Act State α :=
  x.focus State.server fun server s => { s with server }

/-- An act on the desk. -/
def onDesk {α : Type} (x : Act (Desk Stage) α) : Act State α :=
  onServer (Http.Server.onDesk x)

/-- An act of the host. -/
def onHost {α : Type} (x : Act Stage α) : Act State α := onDesk (Desk.onHost x)

/-- An act of the application. -/
def onApp {α : Type} (x : Act (Http.App Stage) α) : Act State α :=
  onServer (Http.Server.onApp x)

/-! ## The opening -/

/-- What happens before the first step: the fragment of a plan becomes pending. A service has
none. -/
def opening (p : Plan) (setting : Setting) : Act State Unit :=
  match p.mode with
  | .service _ => pure ()
  | _ => do
    let commands ← onHost (setting.service.dispatcher.parse p.hash)
    onDesk (Act.modify fun desk => { desk with pending := commands })

end Deeplink.Scenario

import Deeplink.Http.App
import Deeplink.RunReport

/-!
# What the endpoints do

Each endpoint does what the table of the specification (6) says beside it.

- `Http.Service.health`: the names that the service gives itself.
- `Http.Service.parse`, `Http.Service.pending`: commands as data; neither changes anything.
- `Http.Service.load`: new pending commands, unless a dispatch is under way.
- `Http.Service.runPending`, `Http.Service.run`: the two ways to run commands.
-/

namespace Deeplink.Http.Service

variable {ρ : Type}

/-- The names that the service gives itself, and its methods in order. -/
def health (s : Service ρ) : Json :=
  .obj [("status", .str "healthy"), ("service", .str "hash-commands-api"),
    ("version", .str "1.0.0"),
    ("methods", .arr ((Text.sorted s.dispatcher.methods).map .str))]

/-- Commands as data that is sent. -/
def sent (s : Service ρ) (cs : List Command) : Task (App ρ) Json :=
  Task.ofAct (Act.ofExcept ((Command.sentList s.framework.carrier cs).mapError fun fault =>
    Failure.of (.unserializable fault)))

/-- The commands of a fragment. -/
def parse (s : Service ρ) (hash : Text) : Task (App ρ) Json := do
  let commands ← App.onDesk (Task.ofAct (Desk.onHost (s.dispatcher.parse (some hash))))
  s.sent commands

/-- The pending commands. -/
def pending (s : Service ρ) : Task (App ρ) Json := do
  s.sent (← Task.get).desk.pending

/-- Makes the commands of a fragment the pending ones. -/
def load (s : Service ρ) (hash : Text) : Task (App ρ) Json := do
  Task.ofAct ensureIdle
  let commands ← App.onDesk (Task.ofAct (s.dispatcher.load (some hash)))
  s.sent commands

/-- Runs the pending commands. -/
def runPending (s : Service ρ) : Task (App ρ) Json := do
  let count ← exclusively (App.onDesk s.dispatcher.runOnce)
  Task.signal (.notice {
    level := .info
    source := .endpoints
    message := "Pending hash commands executed: " ++ Text.ofNat count })
  return (RunReport.mk count).toJson

/-- Runs the commands of a fragment; the pending ones stay. -/
def run (s : Service ρ) (hash : Text) : Task (App ρ) Json := do
  let count ← exclusively (App.onDesk (s.dispatcher.runFragment (some hash)))
  return (RunReport.mk count).toJson

end Deeplink.Http.Service

import Deeplink.Dispatch
import Deeplink.Http.Framework

/-!
# The application

The application around the dispatcher (specification, 5): it has a lock, and whoever finds it taken
gets a conflict.

- `Http.App`: the state of the service: the desk, whether a dispatch is under way, the settings
  and the root of the log.
- `Http.Service`: what does not change: the dispatcher, the framework and the text of the current
  time.
- `Http.Service.exclusively`: one dispatch at a time; a second one is refused, not queued.
-/

namespace Deeplink.Http

/-! ## State -/

/-- The state of the service. -/
structure App (ρ : Type) where
  desk : Desk ρ
  isBusy : Bool := false
  settings : Settings.Store := {}
  root : Log.Root := {}

namespace App

variable {ρ α : Type}

/-- Work on the desk. -/
def onDesk (t : Task (Desk ρ) α) : Task (App ρ) α :=
  t.focus App.desk fun desk app => { app with desk }

/-- An act on the settings. -/
def onSettings (x : Act Settings.Store α) : Act (App ρ) α :=
  x.focus App.settings fun settings app => { app with settings }

end App

/-- What does not change while the service runs. -/
structure Service (ρ : Type) where
  dispatcher : Dispatcher ρ
  framework : Framework
  now : Text

namespace Service

variable {ρ α : Type}

/-! ## One dispatch at a time -/

/-- What a second dispatch is told. -/
def busyMessage : Text :=
  "A hash command dispatch is already running. Retry once it settles."

/-- Fails while a dispatch is under way. -/
def ensureIdle : Act (App ρ) Unit := do
  if (← Act.get).isBusy then Act.fail (Failure.ofCommand (.concurrency busyMessage) {})
  else return ()

/-- Marks whether a dispatch is under way. -/
def mark (isBusy : Bool) (app : App ρ) : App ρ := { app with isBusy }

/-- Work during which no other dispatch is taken; however it ends, the next one is. -/
def exclusively (t : Task (App ρ) α) : Task (App ρ) α := do
  Task.ofAct ensureIdle
  Task.modify (mark true)
  t.ensuring (mark false)

end Service

end Deeplink.Http

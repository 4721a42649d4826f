import Deeplink.FragmentRequest
import Deeplink.Http.App

/-!
# The life of the service

The log is set up once, when the service starts (specification, 10.2).

- `Http.Service.startUp`: sets up the log as the settings say, and announces the methods.
- `Http.Service.shutDown`: announces the end.
-/

namespace Deeplink.Http.Service

variable {ρ : Type}

/-- A notice about the service itself. -/
def announce (message : Text) : Act (App ρ) Unit :=
  Act.emit (.notice { level := .info, source := .service, message })

/-- The settings of the service. -/
def settings : Act (App ρ) Settings := do
  match ← App.onSettings FragmentRequest.current with
  | .ok s => return s
  | .error fault => Act.fail (Failure.ofSettings fault)

/-- Sets up the root of the log. -/
def setUpLog (level form : Text) : Act (App ρ) Unit := do
  let (result, root) := (← Act.get).root.setUp level form
  Act.modify fun app => { app with root }
  Act.ofExcept (result.mapError fun fault => Failure.of (.level fault))

/-- Sets up the log and says which methods there are. -/
def startUp (s : Service ρ) : Act (App ρ) Unit := do
  let current ← settings
  setUpLog current.logLevel current.logFormat
  announce ("Hash Commands API started with methods "
    ++ Text.quotedList (Text.sorted s.dispatcher.methods))

def shutDown : Act (App ρ) Unit := announce "Hash Commands API shutting down"

end Deeplink.Http.Service

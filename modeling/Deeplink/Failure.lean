import Deeplink.Arguments
import Deeplink.CommandError
import Deeplink.Json.Sendable
import Deeplink.Log.Root
import Deeplink.Settings

/-!
# Failures

What can end a piece of work early. Runners and sinks fail by raising (specification, 6), and not
all that can be raised is caught.

- `ErrorKind`: the kinds of errors that handlers raise. Some are not ordinary: they are meant for
  whoever runs the service.
- `Fault`: a failure of some part of the service; its class and its message. The text of an error
  may be missing: who asks for it gets another failure.
- `Failure`: a fault, and the failure that has caused it, if there is one.
- `Failure.isOrdinary`: whether a failure is one of those that are caught.
- `Failure.escaping?`: what gets past work that catches ordinary failures and tells their texts.
- `Failure.report`: the failure as a log shows it, its first cause first.
-/

namespace Deeplink

/-! ## Kinds -/

/-- The kinds of errors that handlers raise. `other` are the classes of a host: the module that
defines the class, its name, and whether it is an ordinary one. -/
inductive ErrorKind where
  | value
  | runtime
  | type
  | key
  | general
  | recursion
  | cancelled
  | exit
  | interrupt
  | close
  | other (module name : Text) (isOrdinary : Bool)
  deriving DecidableEq

namespace ErrorKind

def name : ErrorKind → Text
  | .value => "ValueError"
  | .runtime => "RuntimeError"
  | .type => "TypeError"
  | .key => "KeyError"
  | .general => "Exception"
  | .recursion => "RecursionError"
  | .cancelled => "CancelledError"
  | .exit => "SystemExit"
  | .interrupt => "KeyboardInterrupt"
  | .close => "GeneratorExit"
  | .other _ name _ => name

/-- The module that defines a kind, if it is not a common one. -/
def module? : ErrorKind → Option Text
  | .cancelled => some "asyncio.exceptions"
  | .other module _ _ => some module
  | _ => none

/-- Whether errors of a kind are caught: not if they cancel work, or end the program. -/
def isOrdinary : ErrorKind → Bool
  | .cancelled | .exit | .interrupt | .close => false
  | .other _ _ isOrdinary => isOrdinary
  | _ => true

end ErrorKind

/-! ## Faults and failures -/

mutual

/-- A failure of some part of the service. The text of a `textless` error cannot be made: the
attempt fails itself. -/
inductive Fault where
  | raised (kind : ErrorKind) (message : Text)
  | textless (kind : ErrorKind) (failure : Failure)
  | command (error : CommandError)
  | arguments (fault : ArgumentsFault)
  | json (fault : Json.ReadFault)
  | settings (fault : Settings.Fault)
  | level (fault : Log.LevelFault)
  | unwritable (fault : Utf8.EncodeFault)
  | unserializable (fault : Json.SendFault)

/-- A fault, or a fault that an earlier failure has caused. -/
inductive Failure where
  | of (fault : Fault)
  | causedBy (fault : Fault) (cause : Failure)

end

deriving instance DecidableEq for Fault
deriving instance DecidableEq for Failure

/-- The class of a fault of a JSON text. -/
def Json.ReadFault.className : Json.ReadFault → Text
  | .defect _ _ => "JSONDecodeError"
  | .constant _ => "ValueError"
  | .longInteger _ => "ValueError"
  | .nesting _ => "RecursionError"

/-- The module of this class, if it is not a common one. -/
def Json.ReadFault.module? : Json.ReadFault → Option Text
  | .defect _ _ => some "json.decoder"
  | _ => none

/-- The class of a fault of arguments. -/
def ArgumentsFault.className : ArgumentsFault → Text
  | .percent (.malformed _) => "ValueError"
  | .percent (.octets _) => "UnicodeDecodeError"
  | .json fault => fault.className
  | .notAnObject _ => "ValueError"

/-- The class of an error of the pipeline. -/
def CommandError.Cause.className : CommandError.Cause → Text
  | .general _ _ _ _ _ => "HashCommandError"
  | .rejected _ => "CommandRejectedError"
  | .execution _ _ => "CommandExecutionError"
  | .notFound _ _ => "ResourceNotFoundError"
  | .concurrency _ => "ConcurrencyError"

/-- What is reported where nested work goes too deep. -/
def depthMessage (inside : Json.Container) : Text :=
  (Json.ReadFault.nesting inside).message

namespace Fault

/-- The class of a fault. -/
def className : Fault → Text
  | .raised kind _ => kind.name
  | .textless kind _ => kind.name
  | .command error => error.cause.className
  | .arguments fault => fault.className
  | .json fault => fault.className
  | .settings (.invalid _) => "ValidationError"
  | .settings (.unreadable _) => "SettingsError"
  | .settings (.nesting _) => "RecursionError"
  | .level (.unknown _) => "ValueError"
  | .level (.notALevel _) => "TypeError"
  | .unwritable _ => "UnicodeEncodeError"
  | .unserializable _ => "PydanticSerializationError"

/-- The module that defines the class of a fault, if it is not a common one. -/
def module? : Fault → Option Text
  | .raised kind _ => kind.module?
  | .textless kind _ => kind.module?
  | .command _ => some "hash_commands.core.errors"
  | .arguments (.json fault) => fault.module?
  | .json fault => fault.module?
  | .settings (.invalid _) => some "pydantic_core._pydantic_core"
  | .settings (.unreadable _) => some "pydantic_settings.exceptions"
  | .unserializable _ => some "pydantic_core._pydantic_core"
  | _ => none

/-- The class of a fault behind its module. -/
def qualifiedName (f : Fault) : Text :=
  match f.module? with
  | none => f.className
  | some module => module ++ "." ++ f.className

/-- What a log shows for a text that cannot be made. -/
def noText : Text := "<exception str() failed>"

/-- The message of a fault; that of a missing key is the key, quoted. -/
def message : Fault → Text
  | .raised .key key => Text.quoted key
  | .raised _ message => message
  | .textless _ _ => noText
  | .command error => error.message
  | .arguments fault => fault.message
  | .json fault => fault.message
  | .settings (.invalid errors) =>
    Text.ofNat errors.length ++ " validation errors for Settings"
  | .settings (.unreadable _) => Settings.unreadableMessage
  | .settings (.nesting inside) => depthMessage inside
  | .level fault => fault.message
  | .unwritable fault => fault.message
  | .unserializable fault => "Error serializing to JSON: " ++ fault.message

/-- Whether work that catches failures catches this one. -/
def isOrdinary : Fault → Bool
  | .raised kind _ => kind.isOrdinary
  | .textless kind _ => kind.isOrdinary
  | _ => true

/-- What fails when the text of a fault is made, if that fails. -/
def textFailure? : Fault → Option Failure
  | .textless _ failure => some failure
  | _ => none

/-- One line: the class, and the message if there is one. -/
def line (f : Fault) : Text :=
  if f.message.isEmpty then f.qualifiedName else f.qualifiedName ++ ": " ++ f.message

end Fault

namespace Failure

/-- An error of the pipeline at a place. -/
def ofCommand (cause : CommandError.Cause) (place : CommandError.Place) : Failure :=
  of (.command ⟨cause, place⟩)

/-- The failure that a fault of the settings is. An unreadable variable has a cause. -/
def ofSettings (fault : Settings.Fault) : Failure :=
  match fault with
  | .unreadable cause => causedBy (.settings fault) (of (.json cause))
  | _ => of (.settings fault)

/-- The fault that a failure ends with. -/
def fault : Failure → Fault
  | .of fault => fault
  | .causedBy fault _ => fault

/-- What has caused a failure. -/
def cause? : Failure → Option Failure
  | .of _ => none
  | .causedBy _ cause => some cause

/-- The faults behind a failure, the nearest cause first. -/
def causes : Failure → List Fault
  | .of _ => []
  | .causedBy _ cause => cause.fault :: cause.causes

def message (e : Failure) : Text := e.fault.message

def className (e : Failure) : Text := e.fault.className

/-- Whether a failure is caught. -/
def isOrdinary (e : Failure) : Bool := e.fault.isOrdinary

/-- What gets past work that catches ordinary failures and tells their texts: a failure that is not
ordinary, and what fails when the text of an ordinary one is made. -/
def escaping? (e : Failure) : Option Failure :=
  if e.isOrdinary then e.fault.textFailure? else some e

/-- What a log puts between a cause and its consequence. -/
def consequence : Text :=
  "\n\nThe above exception was the direct cause of the following exception:\n\n"

/-- The lines of a failure and its causes, the first cause first. -/
def report (e : Failure) : Text :=
  Text.join consequence ((e.fault :: e.causes).reverse.map Fault.line)

end Failure

end Deeplink

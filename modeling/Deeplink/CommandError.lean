import Deeplink.Json
import Deeplink.Moment
import Deeplink.Text.Quoted

/-!
# Errors of the pipeline

The hierarchy below `HashCommandError` and the context that its errors carry (specification, 7).

- `Severity`, `Category`: the two classifications of errors.
- `CommandError.Cause`: what went wrong; it fixes code, category, severity, status and text.
- `CommandError.Cause.ofNames`: a cause whose category and severity are given by name.
- `CommandError.Place`: where in a sequence of commands it went wrong.
- `CommandError.envelope`: the data that a response to the error carries.
-/

namespace Deeplink

/-! ## Classifications -/

inductive Severity where
  | info
  | warning
  | error
  | critical
  deriving DecidableEq

namespace Severity

def name : Severity → Text
  | .info => "info"
  | .warning => "warning"
  | .error => "error"
  | .critical => "critical"

def all : List Severity := [.info, .warning, .error, .critical]

/-- The severity of a name. -/
def ofName? (t : Text) : Option Severity := all.find? (·.name = t)

end Severity

inductive Category where
  | validation
  | safety
  | execution
  | resourceNotFound
  | conflict
  | internal
  deriving DecidableEq

namespace Category

def name : Category → Text
  | .validation => "validation"
  | .safety => "safety"
  | .execution => "execution"
  | .resourceNotFound => "resource_not_found"
  | .conflict => "conflict"
  | .internal => "internal"

def all : List Category :=
  [.validation, .safety, .execution, .resourceNotFound, .conflict, .internal]

/-- The category of a name. -/
def ofName? (t : Text) : Option Category := all.find? (·.name = t)

end Category

/-! ## Errors -/

/-- Why validation refuses a command. -/
inductive Refusal where
  | noFamily (command : Text)
  | notSafe (command : Text)
  | other (message : Text)
  deriving DecidableEq

def Refusal.message : Refusal → Text
  | .noFamily command => "No dispatcher found for the command: `" ++ command ++ "`."
  | .notSafe command =>
    "Attempting to run unsafe or non exist command: `" ++ command ++ "`."
  | .other message => message

namespace CommandError

/-- What went wrong. -/
inductive Cause where
  | general (message code : Text) (category : Category) (severity : Severity) (status : Int)
  | rejected (refusal : Refusal)
  | execution (command reason : Text)
  | notFound (resourceType resource : Text)
  | concurrency (message : Text)
  deriving DecidableEq

namespace Cause

def message : Cause → Text
  | .general message _ _ _ _ => message
  | .rejected refusal => refusal.message
  | .execution command reason => "Command `" ++ command ++ "` failed: " ++ reason
  | .notFound resourceType resource => resourceType ++ " '" ++ resource ++ "' not found"
  | .concurrency message => message

def code : Cause → Text
  | .general _ code _ _ _ => code
  | .rejected _ => "COMMAND_REJECTED"
  | .execution _ _ => "COMMAND_EXECUTION_FAILED"
  | .notFound _ _ => "RESOURCE_NOT_FOUND"
  | .concurrency _ => "CONCURRENCY_CONFLICT"

def category : Cause → Category
  | .general _ _ category _ _ => category
  | .rejected _ => .safety
  | .execution _ _ => .execution
  | .notFound _ _ => .resourceNotFound
  | .concurrency _ => .conflict

def severity : Cause → Severity
  | .general _ _ _ severity _ => severity
  | .concurrency _ => .warning
  | _ => .error

def status : Cause → Int
  | .general _ _ _ _ status => status
  | .rejected _ => 400
  | .execution _ _ => 502
  | .notFound _ _ => 404
  | .concurrency _ => 409

end Cause

/-- A name that stands for nothing. -/
inductive NameFault where
  | category (name : Text)
  | severity (name : Text)
  deriving DecidableEq

def NameFault.message : NameFault → Text
  | .category name => Text.quoted name ++ " is not a valid ErrorCategory"
  | .severity name => Text.quoted name ++ " is not a valid ErrorSeverity"

namespace Cause

/-- A general cause whose category and severity are given by their names. Without a severity it
is an error. -/
def ofNames (message code category : Text) (severity : Option Text) (status : Int) :
    Except NameFault Cause :=
  match Category.ofName? category, Severity.ofName? (severity.getD Severity.error.name) with
  | none, _ => .error (.category category)
  | _, none => .error (.severity (severity.getD []))
  | some c, some s => .ok (.general message code c s status)

/-- The status of an error that gives none. -/
def defaultStatus : Int := 500

/-- What a cause knows besides its message, by name. -/
def attributes : Cause → List (Text × Text)
  | .execution command _ => [("command", command)]
  | .notFound resourceType resource =>
    [("resource_type", resourceType), ("resource_id", resource)]
  | _ => []

end Cause

/-- Where in a sequence an error belongs, and when it happened if that is known. -/
structure Place where
  method : Option Text := none
  command : Option Text := none
  position : Option Int := none
  moment : Option Moment := none
  deriving DecidableEq

end CommandError

/-- An error of the pipeline. -/
structure CommandError where
  cause : CommandError.Cause
  place : CommandError.Place
  deriving DecidableEq

namespace CommandError

def message (e : CommandError) : Text := e.cause.message

/-- An optional text as data. -/
def optionalText (t : Option Text) : Json := (t.map Json.str).getD .null

/-- The data of a response to an error; `details` follow the four fixed members. -/
def envelopeOf (code message : Text) (category : Category) (severity : Severity)
    (details : List (Text × Json)) : Json :=
  .obj [("error", .obj (
    ("code", .str code) :: ("message", .str message) :: ("category", .str category.name)
      :: ("severity", .str severity.name) :: details))]

/-- The data of a response to the error. `now` is the text of the current time, for an
error that does not say when it happened. -/
def envelope (now : Text) (e : CommandError) : Json :=
  envelopeOf e.cause.code e.message e.cause.category e.cause.severity [
    ("timestamp", .str ((e.place.moment.map Moment.text).getD now)),
    ("context", .obj [
      ("method", optionalText e.place.method),
      ("command", optionalText e.place.command),
      ("position", (e.place.position.map Json.int).getD .null)])]

end CommandError

end Deeplink

import Deeplink.Http.App

/-!
# Replies

There are three handlers of errors (specification, 7).

- `Http.Service.invalidBody`: the response to a body with errors in its fields.
- `Http.Service.errorResponse`: the response to an error of the pipeline.
- `Http.Service.internalError`: the reply to any other failure, which is raised again.
-/

namespace Deeplink.Http

/-- A response, and the class of a failure that is raised again after it. -/
structure Reply where
  response : Response
  raised : Option Text

namespace Service

variable {ρ : Type}

/-- One line about an error of a body. -/
def detail (e : FieldError) : Json :=
  .obj [("field", .str (Text.join "." (e.path.map Step.text))),
    ("message", .str e.problem.message), ("type", .str e.problem.kind)]

/-- The response to a body with errors in its fields. -/
def invalidBody (path : Text) (errors : List FieldError) : Task (App ρ) Response := do
  Task.signal (.notice {
    level := .warning
    source := .errors
    message := "Rejected request body on " ++ path ++ ": " ++ Text.ofNat errors.length
      ++ " error(s)"
    context := { errorCode := some "VALIDATION_ERROR", path := some path } })
  return Response.ofData 400
    (CommandError.envelopeOf "VALIDATION_ERROR" "Invalid request data" .validation .error
      [("details", .arr (errors.map detail))])

/-- What a notice about an error on a path refers to. -/
def errorContext (path : Text) (e : CommandError) : Log.Context :=
  { method := e.place.method
    command := e.place.command
    errorCode := some e.cause.code
    position := e.place.position
    path := some path }

/-- The response to an error of the pipeline. It fails if its text cannot be sent. -/
def errorResponse (s : Service ρ) (path : Text) (e : CommandError) :
    Task (App ρ) Response := do
  Task.signal (.notice {
    level := if e.cause.status < 500 then .warning else .error
    source := .errors
    message := e.cause.code ++ " on " ++ path ++ ": " ++ e.message
    context := errorContext path e })
  Task.ofAct (Act.ofExcept (s.framework.written e.cause.status.toNat (e.envelope s.now)))

/-- The reply to a failure that nothing else takes care of. It tells nothing of the failure. -/
def internalError (path : Text) (e : Failure) : Task (App ρ) Reply := do
  Task.signal (.notice {
    level := .error
    source := .errors
    message := "Unhandled exception on " ++ path ++ ": " ++ e.message
    context := { errorCode := some "INTERNAL_ERROR", path := some path }
    exception := some e.className })
  let v := CommandError.envelopeOf "INTERNAL_ERROR" "An unexpected error occurred" .internal
    .critical []
  return ⟨Response.ofData 500 v, some e.className⟩

end Service

end Deeplink.Http

import Deeplink.Validation

/-!
# Reports of runs

This is the body of a run response (specification, 6).

- `RunReport`: how many commands a run has executed. The status of a report is always `ok`.
- `RunReport.check`: a report from its fields.
- `RunReport.toJson`: a report as data.
-/

namespace Deeplink

structure RunReport where
  executed : Int
  deriving DecidableEq

namespace RunReport

/-- The one status of a report. -/
def status : Text := "ok"

/-- The status may be left out. -/
def checkStatus (fields : List (Text × Json)) : Checked Unit :=
  match Json.member? "status" fields with
  | none => .ok ()
  | some (.str t) =>
    if t = status then .ok ()
    else Validation.inField "status" (Validation.fails (if t.isScalar then .notOk else .notUnicode))
  | some _ => Validation.inField "status" (Validation.fails .notOk)

def checkExecuted (fields : List (Text × Json)) : Checked Int :=
  Validation.inField "executed" (match Json.member? "executed" fields with
    | none => Validation.fails .missing
    | some v => Validation.integer v)

/-- A report from its fields; others are ignored. -/
def check (fields : List (Text × Json)) : Checked RunReport :=
  match checkStatus fields, checkExecuted fields with
  | .ok (), .ok executed => .ok ⟨executed⟩
  | first, second => .error (first.errors ++ second.errors)

def toJson (r : RunReport) : Json :=
  .obj [("status", .str status), ("executed", .int r.executed)]

end RunReport

end Deeplink

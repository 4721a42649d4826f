import Deeplink.Failure
import Deeplink.Json.Writer
import Deeplink.Log.Template
import Deeplink.Moment

/-!
# Log records and their lines

A record is written as one line: a JSON object that carries when, where and what, and those of the
requested attributes that are set. This is what `JSONFormatter` writes (specification, 10.2).

- `Log.Record`: the name of the logger, the level, the message with its arguments, the time, a
  failure with its texts and further attributes.
- `Log.Record.get?`: the attribute of a name; further attributes hide those that every
  record has, also where the line is made from these.
- `Log.Record.members`: the members of the object. A requested attribute that is null is left
  out, and one that is named like an earlier member takes its place.
- `Log.Record.line`: the line, or why the record has none.
-/

namespace Deeplink.Log

/-- What is written as a line. A record carries the texts of its failure itself: a report may hold
traces, of which a failure knows nothing. -/
structure Record where
  name : Text
  level : Int
  message : Text
  arguments : List Json
  created : Binary64
  attributes : List (Text × Attribute)
  failure : Option Failure
  /-- The text of the failure. -/
  text : Text := (failure.map Failure.message).getD []
  /-- The report of the failure: the texts of its causes, its own, and their traces. -/
  report : Text := (failure.map Failure.report).getD []

/-! ## Faults -/

/-- Why a value gives no report of a failure: it has no parts, too few of them, or the third or
the second one is of the wrong kind. -/
inductive ReportFault where
  | noParts (kind : Text)
  | noThirdMember
  | tooFewParts (kind : Text)
  | notATrace (kind : Text)
  | notAFailure (kind : Text)
  deriving DecidableEq

namespace ReportFault

def message : ReportFault → Text
  | .noParts kind => "'" ++ kind ++ "' object is not subscriptable"
  | .noThirdMember => "2"
  | .tooFewParts kind => kind ++ " index out of range"
  | .notATrace kind => "'" ++ kind ++ "' object has no attribute 'tb_frame'"
  | .notAFailure kind => "'" ++ kind ++ "' object has no attribute '__suppress_context__'"

/-- The class of a fault. -/
def className : ReportFault → Text
  | .noParts _ => "TypeError"
  | .noThirdMember => "KeyError"
  | .tooFewParts _ => "IndexError"
  | .notATrace _ | .notAFailure _ => "AttributeError"

end ReportFault

/-- Why a record has no line. -/
inductive RecordFault where
  | moment (fault : MomentFault)
  | notATime (kind : Text)
  | template (fault : Template.Fault)
  | report (fault : ReportFault)
  deriving DecidableEq

namespace RecordFault

def message : RecordFault → Text
  | .moment fault => fault.message
  | .notATime kind => "'" ++ kind ++ "' object cannot be interpreted as an integer"
  | .template fault => fault.message
  | .report fault => fault.message

/-- The class of a fault. -/
def className : RecordFault → Text
  | .moment .clock => "OverflowError"
  | .moment .calendar => "OSError"
  | .moment _ => "ValueError"
  | .notATime _ => "TypeError"
  | .template fault => fault.className
  | .report fault => fault.className

end RecordFault

namespace Record

/-! ## Attributes -/

/-- The arguments as data: a single object that is not empty, or a list. -/
def argumentsData (r : Record) : Json :=
  match r.arguments with
  | [.obj (m :: ms)] => .obj (m :: ms)
  | values => .arr values

/-- A failure as data: its class, its text, and no trace. -/
def failureData (r : Record) : Json :=
  match r.failure with
  | none => .null
  | some e =>
    .arr [.str ("<class '" ++ e.fault.qualifiedName ++ "'>"), .str r.text, .null]

/-- The attributes that every record has. -/
def ownAttributes (r : Record) : List (Text × Json) :=
  [("name", .str r.name), ("msg", .str r.message), ("args", r.argumentsData),
    ("levelname", .str (levelName r.level)), ("levelno", .int r.level),
    ("exc_info", r.failureData), ("lineno", .int 1), ("created", .float r.created),
    ("threadName", .str "MainThread"), ("processName", .str "MainProcess")]

/-- The further attribute of a name. -/
def further? (r : Record) (name : Text) : Option Attribute := r.attributes.lookup name

/-- The attribute of a name. -/
def get? (r : Record) (name : Text) : Option Attribute :=
  (r.further? name).or ((Json.member? name r.ownAttributes).map .data)

/-- The attribute of a name that every record has. -/
def get (r : Record) (name : Text) : Attribute := (r.get? name).getD (.data .null)

/-! ## Parts of the line -/

/-- When the record was made. -/
def moment (r : Record) : Except RecordFault Moment :=
  match r.get "created" with
  | .data (.float x) => (Moment.ofSeconds x).mapError .moment
  | .data (.int n) => (Moment.ofWholeSeconds n).mapError .moment
  | .data (.bool b) => (Moment.ofWholeSeconds (if b then 1 else 0)).mapError .moment
  | v => .error (.notATime v.kindName)

/-- What is filled into the message, if anything is. -/
def filling? (r : Record) : Option Template.Arguments :=
  match r.further? "args" with
  | none => if r.arguments.isEmpty then none else some (Template.Arguments.ofList r.arguments)
  | some v => if v.isEmpty then none else some (Template.Arguments.ofAttribute v)

/-- The message; arguments, if there are any, are filled in. -/
def filledMessage (r : Record) : Except RecordFault Text :=
  let template := (r.get "msg").shownBare
  match r.filling? with
  | none => .ok template
  | some arguments => (Template.fill template arguments).mapError .template

/-- The report that an attribute gives in the place of a failure: it is expected to be a list of
the kind of a failure, the failure itself and a trace. -/
def reportOf : Attribute → Except ReportFault Text
  | .data (.str t) => .error (if t.length < 3 then .tooFewParts "string" else .notATrace "str")
  | .data (.arr (_ :: .null :: .null :: _)) => .ok "NoneType: None"
  | .data (.arr (_ :: v :: .null :: _)) => .error (.notAFailure v.kindName)
  | .data (.arr (_ :: _ :: trace :: _)) => .error (.notATrace trace.kindName)
  | .data (.arr _) => .error (.tooFewParts "list")
  | .data (.obj _) => .error .noThirdMember
  | v => .error (.noParts v.kindName)

/-- The report of the failure, if there is one. -/
def report? (r : Record) : Except RecordFault (Option Text) :=
  match r.further? "exc_info" with
  | none => .ok (r.failure.map fun _ => r.report)
  | some v => if v.isEmpty then .ok none else ((reportOf v).map some).mapError .report

/-- The attributes that a service sets on its records. -/
def standardFields : List Text := ["method", "command", "error_code", "position", "path"]

/-- Sets the requested attributes that are not null, one after the other. -/
def withFields (r : Record) (fields : List Text) (members : List (Text × Json)) :
    List (Text × Json) :=
  fields.foldl (fun members field =>
    match r.get? field with
    | none | some (.data .null) => members
    | some v => Keyed.set field v.toJson members) members

/-! ## The line -/

/-- The members of the line. -/
def members (fields : List Text) (r : Record) : Except RecordFault (List (Text × Json)) := do
  let moment ← r.moment
  let message ← r.filledMessage
  let members := r.withFields fields [
    ("timestamp", .str moment.text), ("level", (r.get "levelname").toJson),
    ("logger", (r.get "name").toJson), ("message", .str message)]
  return match ← r.report? with
    | none => members
    | some report => Keyed.set "exception" (.str report) members

/-- The line of a record with the requested attributes. -/
def line (fields : List Text) (r : Record) : Except RecordFault Text := do
  return Json.write Json.Style.spaced (.obj (← r.members fields))

end Record

end Deeplink.Log

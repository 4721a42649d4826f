import Deeplink.Json.Reader
import Deeplink.Text.Quoted
import Deeplink.Validation

/-!
# Settings

The fields are those of `Settings` (specification, 10.1). Names in any case, the order of precedence
and the checks of kinds belong to the library that reads them; the shape of a method and the
defaults are the own part of the service.

- `Settings`: the two methods of the standard families, the longest fragment, the origins
  that may read responses, and how to log.
- `Settings.checkMethod`: a method is two parts around one colon, neither of them empty.
- `Settings.Field`: the fields in the order in which they are checked.
- `Environment`: named texts; a name may be written in any case.
- `Settings.build`: settings from arguments, the environment and the defaults, in this order
  of precedence.
- `Settings.Store`: an environment, and the settings that have been built from it.
-/

namespace Deeplink

structure Settings where
  runMethod : Text
  routeMethod : Text
  hashMaxLength : Int
  corsOrigins : List Text
  logLevel : Text
  logFormat : Text
  deriving DecidableEq

namespace Settings

/-- What holds where nothing is given. -/
def defaults : Settings :=
  { runMethod := "e:run"
    routeMethod := "e:route"
    hashMaxLength := 8192
    corsOrigins := ["http://localhost:5173"]
    logLevel := "INFO"
    logFormat := "json" }

/-! ## Fields -/

inductive Field where
  | runMethod
  | routeMethod
  | hashMaxLength
  | corsOrigins
  | logLevel
  | logFormat
  deriving DecidableEq

namespace Field

def name : Field → Text
  | .runMethod => "run_method"
  | .routeMethod => "route_method"
  | .hashMaxLength => "hash_max_length"
  | .corsOrigins => "cors_origins"
  | .logLevel => "log_level"
  | .logFormat => "log_format"

/-- All fields, in the order in which they are checked. -/
def all : List Field :=
  [.runMethod, .routeMethod, .hashMaxLength, .corsOrigins, .logLevel, .logFormat]

/-- The field of a name in any case. No name has a letter with a capital outside ASCII. -/
def ofName? (t : Text) : Option Field := all.find? (·.name = t.lowerAscii)

/-- The name of the field in an environment, in lower case. -/
def variableName (f : Field) : Text := "hash_commands_" ++ f.name

/-- The field of a variable whose name may be written in any case. -/
def ofVariable? (t : Text) : Option Field := all.find? (·.variableName = t.lowerAscii)

end Field

/-- Values that are given for fields. -/
abbrev Given := List (Field × Json)

/-! ## Checks -/

/-- Two parts around one colon, neither of them empty. -/
def hasMethodShape (t : Text) : Bool :=
  match Text.pieces ':' t with
  | [namespaceName, qualifier] => !namespaceName.isEmpty && !qualifier.isEmpty
  | _ => false

/-- A text of the shape of a method. -/
def checkMethod (v : Json) : Checked Text := do
  let t ← Validation.text v
  if hasMethodShape t then return t
  else
    Validation.fails
      (.rejected ("method must look like 'ns:qualifier', got " ++ Text.quoted t))

/-- The checked value of a field, or its default. Defaults are not checked. -/
def fieldOr {α : Type} (f : Field) (check : Json → Checked α) (otherwise : α) (given : Given) :
    Checked α :=
  match given.lookup f with
  | none => .ok otherwise
  | some v => Validation.inField f.name (check v)

/-- Settings from the values that are given. `unknown` are names that no field has; nothing is
checked if one of them holds a surrogate. -/
def check (given : Given) (unknown : List Text) : Checked Settings :=
  if !unknown.all Text.isScalar then Validation.fails .notUnicode else
  let run := fieldOr .runMethod checkMethod defaults.runMethod given
  let route := fieldOr .routeMethod checkMethod defaults.routeMethod given
  let length := fieldOr .hashMaxLength Validation.integer defaults.hashMaxLength given
  let origins := fieldOr .corsOrigins Validation.texts defaults.corsOrigins given
  let level := fieldOr .logLevel Validation.text defaults.logLevel given
  let format := fieldOr .logFormat Validation.text defaults.logFormat given
  let extra : List FieldError := unknown.map fun name => ⟨[.field name], .unknownField⟩
  match run, route, length, origins, level, format, extra with
  | .ok runMethod, .ok routeMethod, .ok hashMaxLength, .ok corsOrigins, .ok logLevel,
    .ok logFormat, [] =>
    .ok { runMethod, routeMethod, hashMaxLength, corsOrigins, logLevel, logFormat }
  | _, _, _, _, _, _, _ =>
    .error (run.errors ++ route.errors ++ length.errors ++ origins.errors ++ level.errors
      ++ format.errors ++ extra)

end Settings

/-! ## Environments -/

/-- Named texts, in the order in which they were first set. -/
abbrev Environment := List (Text × Text)

namespace Environment

/-- Sets a variable in its place, or adds it at the end. -/
def set (name value : Text) (env : Environment) : Environment := Keyed.set name value env

/-- Without the variable of exactly this name. -/
def unset (name : Text) (env : Environment) : Environment := env.filter (·.1 ≠ name)

/-- The value of a field: that of the last variable with its name. -/
def field? (f : Settings.Field) (env : Environment) : Option Text :=
  (env.findRev? fun (name, _) => Settings.Field.ofVariable? name = some f).map (·.2)

end Environment

namespace Settings

/-- Why there are no settings. -/
inductive Fault where
  | invalid (errors : List FieldError)
  | unreadable (cause : Json.ReadFault)
  | nesting (inside : Json.Container)
  deriving DecidableEq

/-- What an unreadable variable is reported as. -/
def unreadableMessage : Text :=
  "error parsing value for field \"cors_origins\" from source \"EnvSettingsSource\""

/-- The value that a variable gives for a field. The origins are JSON, in which `null` gives
no value; every other field is the text itself. -/
def variableValue (f : Field) (t : Text) : Except Fault (Option Json) :=
  if f = .corsOrigins then
    match Json.read Json.lenient t with
    | .ok .null => .ok none
    | .ok v => .ok (some v)
    | .error (.nesting inside) => .error (.nesting inside)
    | .error cause => .error (.unreadable cause)
  else .ok (some (.str t))

/-- The values that an environment gives for the fields. -/
def givenBy (env : Environment) : List Field → Except Fault Given
  | [] => .ok []
  | f :: fields =>
    match env.field? f with
    | none => givenBy env fields
    | some t => do
      let v ← variableValue f t
      let rest ← givenBy env fields
      return match v with
        | none => rest
        | some v => (f, v) :: rest

/-- The arguments that name fields. The first of two arguments for one field counts. -/
def known (arguments : List (Text × Json)) : Given :=
  arguments.filterMap fun (name, v) => (Field.ofName? name).map (·, v)

/-- The names of arguments that no field has. -/
def unknown (arguments : List (Text × Json)) : List Text :=
  (arguments.filter fun (name, _) => (Field.ofName? name).isNone).map (·.1)

/-- Settings from arguments, the environment and the defaults, in this order of precedence. -/
def build (arguments : List (Text × Json)) (env : Environment) : Except Fault Settings :=
  match givenBy env Field.all with
  | .error fault => .error fault
  | .ok given =>
    match check (known arguments ++ given) (unknown arguments) with
    | .ok s => .ok s
    | .error errors => .error (.invalid errors)

/-! ## The store -/

/-- An environment, and the settings that have been built from it. -/
structure Store where
  environment : Environment := []
  cached : Option Settings := none

namespace Store

/-- The settings that have been built, or new ones, which are kept. Faults are not kept.
Whether the settings had been built before comes with them. -/
def get (s : Store) : Except Fault (Settings × Bool) × Store :=
  match s.cached with
  | some settings => (.ok (settings, true), s)
  | none =>
    match build [] s.environment with
    | .ok settings => (.ok (settings, false), { s with cached := some settings })
    | .error fault => (.error fault, s)

/-- Forgets the settings that have been built. -/
def clear (s : Store) : Store := { s with cached := none }

/-- Sets variables one after the other. -/
def setVariables (pairs : List (Text × Text)) (s : Store) : Store :=
  { s with environment := pairs.foldl (fun env (n, v) => env.set n v) s.environment }

/-- Unsets variables one after the other. -/
def unsetVariables (names : List Text) (s : Store) : Store :=
  { s with environment := names.foldl (fun env n => env.unset n) s.environment }

end Store

end Settings

end Deeplink

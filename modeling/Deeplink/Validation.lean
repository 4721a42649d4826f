import Deeplink.IntegerText
import Deeplink.Json

/-!
# Validation of fields

Data from outside is checked field by field, and every bad field is reported. These are the checks
of the library that reads settings and bodies (specification, 6 and 10.1).

- `Problem`: what is wrong with a value; its type and its message.
- `FieldError`: a problem and the path to the value that has it.
- `Checked`: a good value, or all the errors of a bad one.
- `Validation.text`, `Validation.integer`, `Validation.texts`: values of the three kinds
  that fields have. An integer may be written as a text.
-/

namespace Deeplink

/-! ## Errors -/

/-- What is wrong with a value. -/
inductive Problem where
  | notText
  | notUnicode
  | notInteger
  | notIntegerText
  | integerTooLong
  | fractional
  | notFinite
  | notList
  | missing
  | notOk
  | unknownField
  | notRequest
  | notObject
  | notJson
  | rejected (reason : Text)
  deriving DecidableEq

namespace Problem

/-- The short name of a kind of problem. -/
def kind : Problem → Text
  | .notText => "string_type"
  | .notUnicode => "string_unicode"
  | .notInteger => "int_type"
  | .notIntegerText => "int_parsing"
  | .integerTooLong => "int_parsing_size"
  | .fractional => "int_from_float"
  | .notFinite => "finite_number"
  | .notList => "list_type"
  | .missing => "missing"
  | .notOk => "literal_error"
  | .unknownField => "extra_forbidden"
  | .notRequest => "model_type"
  | .notObject => "model_attributes_type"
  | .notJson => "json_invalid"
  | .rejected _ => "value_error"

def message : Problem → Text
  | .notText => "Input should be a valid string"
  | .notUnicode =>
    "Input should be a valid string, unable to parse raw data as a unicode string"
  | .notInteger => "Input should be a valid integer"
  | .notIntegerText =>
    "Input should be a valid integer, unable to parse string as an integer"
  | .integerTooLong =>
    "Unable to parse input string as an integer, exceeded maximum size"
  | .fractional => "Input should be a valid integer, got a number with a fractional part"
  | .notFinite => "Input should be a finite number"
  | .notList => "Input should be a valid list"
  | .missing => "Field required"
  | .notOk => "Input should be 'ok'"
  | .unknownField => "Extra inputs are not permitted"
  | .notRequest => "Input should be a valid dictionary or instance of HashRequest"
  | .notObject => "Input should be a valid dictionary or object to extract fields from"
  | .notJson => "JSON decode error"
  | .rejected reason => "Value error, " ++ reason

end Problem

/-- One step on the way to a value: into a field or to an item of a list. -/
inductive Step where
  | field (name : Text)
  | item (index : Nat)
  deriving DecidableEq

def Step.text : Step → Text
  | .field name => name
  | .item index => Text.ofNat index

/-- A problem, and the path to the value that has it. -/
structure FieldError where
  path : List Step
  problem : Problem
  deriving DecidableEq

/-- The error of a value that lies in the given field. -/
def FieldError.inside (field : Text) (e : FieldError) : FieldError :=
  { e with path := .field field :: e.path }

/-- A good value, or every error of a bad one. -/
abbrev Checked (α : Type) := Except (List FieldError) α

/-- The errors of a value; a good one has none. -/
def Checked.errors {α : Type} : Checked α → List FieldError
  | .ok _ => []
  | .error es => es

namespace Validation

/-! ## Kinds of values -/

/-- A single problem of the value itself. -/
def fails {α : Type} (p : Problem) : Checked α := .error [⟨[], p⟩]

/-- A check of the value of a field. -/
def inField {α : Type} (field : Text) (c : Checked α) : Checked α :=
  c.mapError (·.map (FieldError.inside field))

/-- A string. -/
def text : Json → Checked Text
  | .str t => .ok t
  | _ => fails .notText

/-- What is wrong with a text that should be an integer. -/
def problemOfText : IntegerText.Fault → Problem
  | .surrogate => .notUnicode
  | .malformed => .notIntegerText
  | .tooLong => .integerTooLong

/-- An integer as a text. -/
def integerText (t : Text) : Checked Int :=
  match IntegerText.read t with
  | .ok n => .ok n
  | .error fault => fails (problemOfText fault)

/-- A number without fraction whose magnitude is below `2⁶³`. -/
def wholeNumber (x : Binary64) : Checked Int :=
  if !x.isFinite then fails .notFinite
  else if !x.isWhole then fails .fractional
  else if x.truncated.natAbs < Nat.pow 2 63 then .ok x.truncated
  else fails .integerTooLong

/-- An integer, a boolean as one or zero, a number without fraction, or an integer text. -/
def integer : Json → Checked Int
  | .int n => .ok n
  | .bool b => .ok (if b then 1 else 0)
  | .float x => wholeNumber x
  | .str t => integerText t
  | _ => fails .notInteger

/-- Strings from the given index on; all other items are reported. -/
def textItems (index : Nat) : List Json → Checked (List Text)
  | [] => .ok []
  | v :: rest =>
    match text v, textItems (index + 1) rest with
    | .ok t, .ok ts => .ok (t :: ts)
    | first, others =>
      .error (first.errors.map (fun e => { e with path := .item index :: e.path })
        ++ others.errors)

/-- A list of strings. -/
def texts : Json → Checked (List Text)
  | .arr items => textItems 0 items
  | _ => fails .notList

end Validation

end Deeplink

import Deeplink.Command
import Deeplink.Json.Reader
import Deeplink.Percent

/-!
# Arguments

The text behind the question mark of a token: a percent-encoded JSON object. This is step 8 of the
parser, `decode_args` (specification, 4.1).

- `ArgumentsFault`: the text has a malformed escape, encodes wrong octets, is not JSON, or
  is JSON but no object.
- `Arguments.decode`: the arguments of a text. A missing or empty text has none.
-/

namespace Deeplink

/-- Why a text has no arguments. -/
inductive ArgumentsFault where
  | percent (fault : Percent.DecodeFault)
  | json (fault : Json.ReadFault)
  | notAnObject (kind : Text)
  deriving DecidableEq

def ArgumentsFault.message : ArgumentsFault → Text
  | .percent fault => fault.message
  | .json fault => fault.message
  | .notAnObject kind => "Expected a JSON object, got " ++ kind

namespace Arguments

/-- The members, if the value is an object. -/
def ofJson (v : Json) : Except ArgumentsFault Args :=
  match v.obj? with
  | some members => .ok members
  | none => .error (.notAnObject v.kindName)

/-- The arguments that a text encodes. -/
def ofText (raw : Text) : Except ArgumentsFault Args :=
  match Percent.decode raw with
  | .error fault => .error (.percent fault)
  | .ok text =>
    match Json.read Json.strict text with
    | .error fault => .error (.json fault)
    | .ok v => ofJson v

/-- The arguments of a token: those of its text, and none without a text. -/
def decode : Option Text → Except ArgumentsFault Args
  | none => .ok []
  | some [] => .ok []
  | some raw => ofText raw

end Arguments

end Deeplink

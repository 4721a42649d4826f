import Deeplink.Json
import Deeplink.Utf8

/-!
# Values that can be sent

A message cannot carry surrogates, and it has no text for numbers that are not finite. Values do
not lie inside each other without bound.

- `Json.SendFault`: why a value cannot be sent.
- `Json.sendFault?`: the first fault of a value, if it has any.
- `Json.sendable`: the value with null in the place of numbers that are not finite.
- `Text.withoutSurrogates`: a text that can be sent in any case.
- `Json.Carrier`: what sends values; `Json.Carrier.standard` does it in this way.
-/

namespace Deeplink.Json

/-! ## Faults -/

/-- Why a value cannot be sent. -/
inductive SendFault where
  | surrogates (fault : Utf8.EncodeFault)
  | tooDeep
  deriving DecidableEq

def SendFault.message : SendFault → Text
  | .surrogates fault => "UnicodeEncodeError: " ++ fault.message
  | .tooDeep => "ValueError: Circular reference detected (depth exceeded)"

/-- A text can be sent if it has no surrogates. -/
def textFault? (t : Text) : Option SendFault := (Utf8.firstSurrogates? t).map .surrogates

/-- How many values may lie inside each other. -/
def deepest : Nat := 254

mutual

/-- The first fault of a value. At most `room` values may lie inside each other. -/
def sendFault? : Nat → Json → Option SendFault
  | 0, _ => some .tooDeep
  | _ + 1, .str t => textFault? t
  | room + 1, .arr items => itemsFault? room items
  | room + 1, .obj members => membersFault? room members
  | _ + 1, _ => none

def itemsFault? (room : Nat) : List Json → Option SendFault
  | [] => none
  | v :: rest => (sendFault? room v).or (itemsFault? room rest)

def membersFault? (room : Nat) : List (Text × Json) → Option SendFault
  | [] => none
  | (k, v) :: rest => ((textFault? k).or (sendFault? room v)).or (membersFault? room rest)

end

/-! ## Sendable values -/

mutual

/-- The value with null in the place of each number that is not finite. -/
def sendable : Json → Json
  | .float x => if x.isFinite then .float x else .null
  | .arr items => .arr (sendableItems items)
  | .obj members => .obj (sendableMembers members)
  | v => v

def sendableItems : List Json → List Json
  | [] => []
  | v :: rest => sendable v :: sendableItems rest

def sendableMembers : List (Text × Json) → List (Text × Json)
  | [] => []
  | (k, v) :: rest => (k, sendable v) :: sendableMembers rest

end

end Deeplink.Json

namespace Deeplink.Text

/-- The text with replacement characters in the place of each surrogate, one for each of the octets
that would stand for it. -/
def withoutSurrogates (t : Text) : Text :=
  t.flatMap fun c => if c.isSurrogate then List.replicate 3 (.char '\uFFFD') else [c]

end Deeplink.Text

namespace Deeplink.Json

/-! ## Carriers -/

/-- What sends data: which texts and which values it refuses, and how it sends values and the names
of members. -/
structure Carrier where
  textFault? : Text → Option SendFault
  valueFault? : Json → Option SendFault
  value : Json → Json
  name : Text → Text

/-- The carrier that sends null for numbers that are not finite. -/
def Carrier.standard : Carrier :=
  { textFault? := Json.textFault?
    valueFault? := sendFault? deepest
    value := sendable
    name := Text.withoutSurrogates }

end Deeplink.Json

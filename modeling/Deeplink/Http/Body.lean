import Deeplink.FragmentRequest
import Deeplink.Http.Message
import Deeplink.Json.Octets
import Deeplink.Json.Reader

/-!
# Bodies of requests

This is how the standard framework (`Http.Framework.standard`) reads bodies; the service relies on
no more of it than what it gives for a fragment.

- `Http.Body`: a body that is missing, data, defective or unreadable JSON, or something else.
- `Http.Body.ofRequest`: the content type says whether a body is JSON.
- `Http.Body.Refusal`: why a body gives no fragment.
- `Http.Body.fragment`: the fragment that a body gives.
-/

namespace Deeplink.Http

/-- The body of a request. A defect is at an offset in code points. -/
inductive Body where
  | missing
  | data (v : Json)
  | defective (offset : Nat)
  | unreadable
  | foreign

namespace Body

/-! ## Reading -/

/-- Whether a content type stands for JSON. Parameters and case do not matter. -/
def isJsonType (t : Text) : Bool :=
  match Text.pieces '/' (Text.trim CodePoint.isSeparating (Text.cut ';' t).1).lowerAscii with
  | [main, sub] => main = "application" && (sub = "json" || Text.ofString "+json" <:+ sub)
  | _ => false

/-- The data of octets that should be JSON. -/
def ofOctets (octets : List UInt8) : Body :=
  match Json.decodeOctets octets with
  | none => .unreadable
  | some t =>
    match Json.read Json.lenient t with
    | .ok v => .data v
    | .error (.defect _ place) => .defective place.offset
    | .error _ => .unreadable

/-- The body of a request. -/
def ofRequest (r : Request) : Body :=
  let isJson := ((r.header? "content-type").map (isJsonType ∘ Utf8.octetText)).getD false
  if r.body.isEmpty then .missing
  else if isJson then ofOctets r.body
  else .foreign

/-- Whether a body is neither defective nor unreadable. -/
def isWellFormed : Body → Bool
  | .defective _ | .unreadable => false
  | _ => true

/-! ## Fragments -/

/-- Why a body gives no fragment. -/
inductive Refusal where
  | unreadable
  | invalid (errors : List FieldError)
  deriving DecidableEq

/-- A problem at a place below the body. -/
def refuse (steps : List Step) (p : Problem) : Except Refusal Text :=
  .error (.invalid [⟨.field "body" :: steps, p⟩])

/-- The fragment that a body gives. -/
def fragment : Body → Act Settings.Store (Except Refusal Text)
  | .missing => pure (refuse [] .missing)
  | .foreign => pure (refuse [] .notObject)
  | .defective offset => pure (refuse [.item offset] .notJson)
  | .unreadable => pure (.error .unreadable)
  | .data v => do
    let checked ← FragmentRequest.check .notObject v
    return (Validation.inField "body" checked).mapError .invalid

end Body

end Deeplink.Http

import Deeplink.Http.Message
import Deeplink.Utf8

/-!
# Sharing responses with other origins

A browser lets a page read a response from another origin only if the response allows it, and asks
beforehand about requests that are not simple. This is how the standard framework
(`Http.Framework.standard`) answers and marks responses.

- `Http.Sharing`: the origins that may read responses; `*` among them stands for every origin.
- `Http.Sharing.asked?`: the answer to a question asked beforehand. Every known method and every
  header is allowed.
- `Http.Sharing.headers`: the headers of a response, with those that allow its origin to read it.
-/

namespace Deeplink.Http

/-- The origins that may read responses. -/
structure Sharing where
  origins : List Text
  deriving DecidableEq

namespace Sharing

/-! ## Origins -/

def everyOrigin : Text := "*"

/-- Whether every origin may read responses. -/
def isOpen (s : Sharing) : Bool := everyOrigin ∈ s.origins

/-- Whether an origin may read responses. Headers are octets, each of which is compared with one
code point. -/
def allows (s : Sharing) (origin : Text) : Bool :=
  s.isOpen || Utf8.octetText origin ∈ s.origins

/-- The header that allows an origin, if it is allowed. -/
def allowHeader (s : Sharing) (origin : Text) : List (Text × Text) :=
  if s.isOpen then [("access-control-allow-origin", everyOrigin)]
  else if s.allows origin then [("access-control-allow-origin", origin)]
  else []

/-! ## Questions asked beforehand -/

/-- The methods that pages may use. -/
def methods : List Text :=
  ["DELETE", "GET", "HEAD", "OPTIONS", "PATCH", "POST", "PUT", "QUERY"]

/-- What of a question is refused: its origin, its method, the private network. -/
def refusals (s : Sharing) (origin method : Text) (r : Request) : List Text :=
  let checks : List (Text × Bool) :=
    [("origin", s.allows origin), ("method", method ∈ methods),
      ("private-network", (r.header? "access-control-request-private-network").isNone)]
  (checks.filter fun (_, passes) => !passes).map (·.1)

/-- The headers of a question that its answer depends on. -/
def decidingHeaders : List Text :=
  ["Origin", "Access-Control-Request-Method", "Access-Control-Request-Headers",
    "Access-Control-Request-Private-Network"]

/-- The headers of an answer. The requested headers, if any, are allowed. -/
def answerHeaders (s : Sharing) (origin : Text) (r : Request) : List (Text × Text) :=
  let fixed : List (Text × Text) :=
    [("vary", Text.join ", " decidingHeaders),
      ("access-control-allow-methods", Text.join ", " methods),
      ("access-control-max-age", "600")]
  let requested : List (Text × Text) :=
    match r.header? "access-control-request-headers" with
    | none => []
    | some names => [("access-control-allow-headers", names)]
  fixed ++ s.allowHeader origin ++ requested

/-- The answer to a question about a method from an origin. -/
def answer (s : Sharing) (origin method : Text) (r : Request) : Response :=
  let headers := s.answerHeaders origin r
  match s.refusals origin method r with
  | [] => ⟨200, headers, .plain "OK"⟩
  | refused => ⟨400, headers, .plain ("Disallowed CORS " ++ Text.join ", " refused)⟩

/-- The answer, if the headers of a request ask something beforehand. -/
def asked? (s : Sharing) (r : Request) : Option Response := do
  let origin ← r.header? "origin"
  let method ← r.header? "access-control-request-method"
  return s.answer origin method r

/-! ## Responses -/

/-- The headers of a response. The origin of the request may read it if it is allowed to. -/
def headers (s : Sharing) (r : Request) (response : Response) : List (Text × Text) :=
  let allowed : List (Text × Text) :=
    match r.header? "origin" with
    | none => []
    | some origin => s.allowHeader origin
  (response.withHeader "vary" "Origin").headers ++ allowed

end Sharing

end Deeplink.Http

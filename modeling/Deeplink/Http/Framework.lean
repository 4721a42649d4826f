import Deeplink.Command.Sendable
import Deeplink.Failure
import Deeplink.Http.Body
import Deeplink.Http.Sharing
import Deeplink.Json.Writer

/-!
# The framework

The service runs on a framework, which reads the bodies of requests and sends responses. What is
asked of it is gathered here, and all else is the service's own. The laws that answers rest on are
those of `Http.Framework.Lawful`.

- `Http.Framework`: how bodies are read, how questions asked beforehand are answered, which headers
  responses get, how commands are sent, and which data can be written at all.
- `Http.Framework.written`: a response with data, if the data can be written.
- `Http.Framework.preflight?`: whatever the framework answers, only a request with the method
  `OPTIONS` asks something beforehand.
- `Http.Framework.share`: whoever asks, nothing but the headers of a response depends on that.
- `Http.Framework.standard`: the framework that shares responses with some origins.
-/

namespace Deeplink.Http

/-- What the service takes from the framework that it runs on. -/
structure Framework where
  /-- The body of a request. -/
  body : Request → Body
  /-- The answer to a question asked beforehand, if the headers of a request are one. -/
  asked? : Request → Option Response
  /-- The headers of a response to a request. -/
  headers : Request → Response → List (Text × Text)
  /-- What sends commands. -/
  carrier : Json.Carrier
  /-- Why data cannot be written as the text of a response, if it cannot. -/
  writeFault? : Json → Option Utf8.EncodeFault

namespace Framework

/-- The answer, if a request is a question asked beforehand. -/
def preflight? (f : Framework) (r : Request) : Option Response :=
  if r.method = "OPTIONS" then f.asked? r else none

/-- A response that the origin of the request may read if it is allowed to. -/
def share (f : Framework) (r : Request) (response : Response) : Response :=
  { response with headers := f.headers r response }

/-- A response with data, which fails if the data cannot be written. -/
def written (f : Framework) (status : Nat) (v : Json) : Except Failure Response :=
  match f.writeFault? v with
  | none => .ok (Response.ofData status v)
  | some fault => .error (Failure.of (.unwritable fault))

/-- The framework that shares responses as it is told to. Data is written as one text, which cannot
hold surrogates. -/
def standard (sharing : Sharing) : Framework :=
  { body := Body.ofRequest
    asked? := sharing.asked?
    headers := sharing.headers
    carrier := Json.Carrier.standard
    writeFault? := fun v => Utf8.firstSurrogates? (Json.write Json.Style.compact v) }

end Framework

end Deeplink.Http

import Deeplink.Http.Message
import Deeplink.Percent

/-!
# Endpoints

The table of methods and paths is that of the specification (6).

- `Http.Endpoint`: the endpoints of the service, each with a method and a path.
- `Http.Address`: where a request leads: to an endpoint; to a path that has other methods; to
  another path that differs in the slashes at its end; or nowhere.
- `Http.Address.ofRequest`: methods are compared exactly, and so are paths but for a line break at
  their end.
-/

namespace Deeplink.Http

inductive Endpoint where
  | health
  | parse
  | pending
  | load
  | runPending
  | run
  deriving DecidableEq

namespace Endpoint

def method : Endpoint → Text
  | .health => "GET"
  | .parse => "POST"
  | .pending => "GET"
  | .load => "PUT"
  | .runPending => "POST"
  | .run => "POST"

def path : Endpoint → Text
  | .health => "/api/v1/health/"
  | .parse => "/api/v1/hash-commands/parse"
  | .pending => "/api/v1/hash-commands/pending"
  | .load => "/api/v1/hash-commands/pending"
  | .runPending => "/api/v1/hash-commands/pending/run"
  | .run => "/api/v1/hash-commands/run"

/-- All endpoints. Of two with one path the first answers for wrong methods. -/
def all : List Endpoint := [.health, .parse, .pending, .load, .runPending, .run]

/-- The endpoints of a path; a line break at its end does not matter. -/
def atPath (path : Text) : List Endpoint :=
  all.filter fun e => path = e.path || path = e.path ++ [.char '\n']

end Endpoint

/-- Where a request leads. -/
inductive Address where
  | endpoint (e : Endpoint)
  | wrongMethod (allowed : Text)
  | elsewhere (location : Text)
  | nowhere
  deriving DecidableEq

namespace Address

/-- The path without the slashes at its end, or with one if it has none. -/
def otherPath (path : Text) : Text :=
  match path.reverse.dropWhile (· = .char '/') with
  | [] => []
  | kept => if kept.length = path.length then path ++ [.char '/'] else kept.reverse

/-- The characters that stay as they are in a location. -/
def plainInLocation : List Char := ":/%#?=@[]!$&'()*+,;".toList

/-- The location of a path on the service. -/
def location (path query : Text) : Text :=
  let target := "http://test" ++ path ++ (if query.isEmpty then [] else .char '?' :: query)
  Percent.encode plainInLocation target.toChars

/-- Where a request leads. -/
def ofRequest (r : Request) : Address :=
  match Endpoint.atPath r.path with
  | first :: rest =>
    match (first :: rest).find? (·.method = r.method) with
    | some e => .endpoint e
    | none => .wrongMethod first.method
  | [] =>
    let other := otherPath r.path
    if (Endpoint.atPath other).isEmpty then .nowhere else .elsewhere (location other r.query)

end Address

end Deeplink.Http

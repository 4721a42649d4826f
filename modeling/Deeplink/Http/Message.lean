import Deeplink.Json

/-!
# HTTP messages

- `Http.Request`: a method, a path, a query, headers and the octets of a body.
- `Http.Request.shownPath`: the path of a request as it is reported.
- `Http.Request.header?`: the first header of a name; names are compared in lower case.
- `Http.Content`: what a response carries: data, a plain text or nothing.
- `Http.Response.fields`: the headers of a response in order, its content type included.
-/

namespace Deeplink.Http

/-! ## Requests -/

structure Request where
  method : Text
  path : Text
  query : Text
  headers : List (Text × Text)
  body : List UInt8

namespace Request

/-- The headers of a request that gives none: a body is taken for data. -/
def defaultHeaders (body : List UInt8) : List (Text × Text) :=
  if body.isEmpty then [] else [("content-type", "application/json")]

/-- The path as it is reported: without tabs and line breaks. -/
def shownPath (r : Request) : Text :=
  r.path.filter fun c => c ≠ .char '\t' && c ≠ .char '\n' && c ≠ .char '\r'

/-- The first header of a name in lower case. -/
def header? (name : Text) (r : Request) : Option Text :=
  (r.headers.find? (·.1.lowerAscii = name)).map (·.2)

end Request

/-! ## Responses -/

/-- What a response carries. -/
inductive Content where
  | data (v : Json)
  | plain (t : Text)
  | empty

/-- The type of a content, if it has one. -/
def Content.type? : Content → Option Text
  | .data _ => some "application/json"
  | .plain _ => some "text/plain; charset=utf-8"
  | .empty => none

/-- The header that gives the type of a content. -/
def Content.headers (c : Content) : List (Text × Text) :=
  match c.type? with
  | none => []
  | some t => [("content-type", t)]

structure Response where
  status : Nat
  headers : List (Text × Text)
  content : Content

namespace Response

/-- A response that carries data. -/
def ofData (status : Nat) (v : Json) : Response := ⟨status, [], .data v⟩

/-- A response with nothing but an explanation. -/
def ofDetail (status : Nat) (detail : Text) : Response :=
  ofData status (.obj [("detail", .str detail)])

/-- A response with one more header. -/
def withHeader (name value : Text) (r : Response) : Response :=
  { r with headers := r.headers ++ [(name, value)] }

/-- Whether a header comes before or with another: by name, then by value. -/
def fieldPrecedes (a b : Text × Text) : Bool :=
  if a.1 = b.1 then Text.precedes a.2 b.2 else Text.precedes a.1 b.1

/-- The headers in order, the content type included. -/
def fields (r : Response) : List (Text × Text) :=
  (r.content.headers ++ r.headers).mergeSort fieldPrecedes

end Response

end Deeplink.Http

import Deeplink.Act

/-!
# Fragments

A fragment is a list of tokens between ampersands, after one number sign that may be left out. A
token is `namespace:qualifier:name`, and arguments after a question mark. The parser is `parse_hash`
(specification, 4.1); what a sink does never affects it, unless it raises what is not caught.

- `Token.ofText?`: the parts of a token; a text with another number of colons before the
  question mark is none.
- `Fragment.tokens`: the texts between the ampersands.
- `Sink`: where undecodable arguments are reported; without one they are logged.
- `Fragment.parseToken`: the command of a token whose method is known. Undecodable arguments
  are reported once and count as none.
- `Fragment.parse`: the commands of a fragment, in the order of its tokens.
-/

namespace Deeplink

/-! ## Tokens -/

/-- The parts of a token. -/
structure Token where
  namespaceName : Text
  qualifier : Text
  name : Text
  arguments : Option Text
  deriving DecidableEq

namespace Token

/-- The parts of a text: three between colons, and arguments behind the first question
mark (4.1, steps 4 and 5). -/
def ofText? (t : Text) : Option Token :=
  let (front, arguments) := Text.cut '?' t
  match Text.pieces ':' front with
  | [namespaceName, qualifier, name] => some ⟨namespaceName, qualifier, name, arguments⟩
  | _ => none

/-- The method that a token addresses (4.1, step 6). -/
def method (t : Token) : Text := t.namespaceName ++ .char ':' :: t.qualifier

end Token

/-! ## Sinks -/

/-- What is done with a diagnostic. A sink may fail. -/
abbrev Sink (σ : Type) := Diagnostic → Act σ Unit

namespace Fragment

variable {σ : Type}

/-- Tells the sink, or the log if there is none. A sink that fails is logged, and nothing
else happens. -/
def report (sink : Option (Sink σ)) (d : Diagnostic) : Act σ Unit :=
  match sink with
  | none => Act.emit (.notice d.notice)
  | some tell => do
    match ← (tell d).attempt with
    | .ok () => return ()
    | .error e =>
      if e.isOrdinary then Act.emit (.notice (Diagnostic.sinkNotice e)) else Act.fail e

/-- The arguments of a token; what cannot be decoded is reported and counts as none. -/
def decodeArguments (sink : Option (Sink σ)) (raw : Option Text) : Act σ Args :=
  match Arguments.decode raw with
  | .ok args => pure args
  | .error fault => do
    report sink ⟨fault⟩
    return []

/-! ## Commands -/

/-- The command of one token, if it is one: its method has to be known (4.1, steps 4 to 9). -/
def parseToken (methods : List Text) (sink : Option (Sink σ)) (t : Text) :
    Act σ (Option Command) :=
  match Token.ofText? t with
  | none => pure none
  | some token =>
    if token.method ∈ methods then do
      let args ← decodeArguments sink token.arguments
      return some ⟨token.method, token.name, args⟩
    else pure none

/-- The commands of a list of tokens. -/
def parseTokens (methods : List Text) (sink : Option (Sink σ)) :
    List Text → Act σ (List Command)
  | [] => pure []
  | t :: ts => do
    let first ← parseToken methods sink t
    let rest ← parseTokens methods sink ts
    return first.toList ++ rest

/-- The texts between the ampersands, after one number sign that may be left out (4.1, steps 2 and
3). -/
def tokens (raw : Text) : List Text :=
  Text.pieces '&' (Text.skip '#' raw).2

/-- The commands of a fragment. -/
def parse (methods : List Text) (sink : Option (Sink σ)) (raw : Option Text) :
    Act σ (List Command) :=
  parseTokens methods sink (tokens (raw.getD []))

end Fragment

end Deeplink

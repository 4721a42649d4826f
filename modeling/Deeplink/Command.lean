import Deeplink.Json

/-!
# Commands

This is the value type `HashCommand` (specification, 3).

- `Command`: a method, a name and arguments, as one token of a fragment gives them.
- `Command.same`: equality; arguments are compared as data.
- `Command.hashKey`: what the hash of a command depends on.
- `Command.toJson`, `Command.listToJson`: a command and a list of commands as data.
-/

namespace Deeplink

/-- One command. The method names a family of commands, the name one of its members. -/
structure Command where
  method : Text
  name : Text
  args : Args
  deriving Inhabited

namespace Command

/-- Two commands are the same if their methods and names are equal and their arguments
agree. -/
def same (a b : Command) : Bool :=
  a.method = b.method && a.name = b.name && Json.agrees (.obj a.args) (.obj b.args)

/-- The hash of a command depends on its method and its name only. -/
def hashKey (c : Command) : Text × Text := (c.method, c.name)

def toJson (c : Command) : Json :=
  .obj [("method", .str c.method), ("command", .str c.name), ("args", .obj c.args)]

/-- A list of commands under the one member `commands`. -/
def listToJson (cs : List Command) : Json :=
  .obj [("commands", .arr (cs.map toJson))]

end Command

end Deeplink

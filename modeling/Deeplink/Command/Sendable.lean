import Deeplink.Command
import Deeplink.Json.Sendable

/-!
# Commands that can be sent

What a carrier does is a matter of the framework; what is asked of it is `Json.Carrier.Lawful`.

- `Command.sendFault?`: why a carrier cannot send a command, if it cannot. The names of its
  arguments are no reason.
- `Command.sendable`: a command as it is sent.
- `Command.sentList`: a list of commands as data that is sent.
-/

namespace Deeplink.Command

/-- The first fault of the values of arguments. -/
def argumentsFault? (k : Json.Carrier) (args : Args) : Option Json.SendFault :=
  args.findSome? fun (_, v) => k.valueFault? v

/-- The first fault of a command. -/
def sendFault? (k : Json.Carrier) (c : Command) : Option Json.SendFault :=
  ((k.textFault? c.method).or (k.textFault? c.name)).or (argumentsFault? k c.args)

/-- Arguments as they are sent. Of arguments whose names become the same, the last gives the value
and the first its place. -/
def sendableArguments (k : Json.Carrier) (args : Args) : Args :=
  Json.collect (args.map fun (name, v) => (k.name name, k.value v))

/-- A command as it is sent. -/
def sendable (k : Json.Carrier) (c : Command) : Command :=
  { c with args := sendableArguments k c.args }

/-- A list of commands as data that is sent, or the first fault of the commands. -/
def sentList (k : Json.Carrier) (cs : List Command) : Except Json.SendFault Json :=
  match cs.findSome? (sendFault? k) with
  | some fault => .error fault
  | none => .ok (listToJson (cs.map (sendable k)))

end Deeplink.Command

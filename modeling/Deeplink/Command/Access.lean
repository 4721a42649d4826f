import Deeplink.Command
import Deeplink.Keyed
import Deeplink.Text.Quoted

/-!
# Access to commands

The fields of a command and the members of its arguments do not change. Callers get copies of its
data; to set a member of a copy does nothing to the command. Only the members are copied: lists and
objects inside them are shared, and nothing here changes those. By the
specification (3), commands are immutable and arguments read-only.

- `Command.Access`: what a caller can try to do with a command.
- `Command.AccessFault`: why a command cannot be changed.
- `Command.Copy`: the copy that a caller has taken last.
- `Command.access`: the result of an access, and the copy after it.
-/

namespace Deeplink.Command

/-- What a caller can try to do with a command, with the members of its last copy, or with those of
the arguments that the command was made from. -/
inductive Access where
  | copy
  | changeCopy (key : Text) (value : Json)
  | changeSource (key : Text) (value : Json)
  | changeArgument (key : Text) (value : Json)
  | assign (field : Text)
  | delete (field : Text)
  | list (times : Nat)

/-- Why a command cannot be changed. -/
inductive AccessFault where
  | readOnlyArguments
  | fixedField (field : Text)
  | keptField (field : Text)
  deriving DecidableEq

namespace AccessFault

def message : AccessFault → Text
  | .readOnlyArguments => "'mappingproxy' object does not support item assignment"
  | .fixedField field => "cannot assign to field " ++ Text.quoted field
  | .keptField field => "cannot delete field " ++ Text.quoted field

/-- The class of a fault. -/
def className : AccessFault → Text
  | .readOnlyArguments => "TypeError"
  | _ => "FrozenInstanceError"

end AccessFault

/-- The arguments of the copy that a caller has taken last, if there is one. -/
abbrev Copy := Option Args

/-- The data of a command with other arguments. -/
def withArgs (c : Command) (args : Args) : Json := { c with args }.toJson

/-- The result of an access, and the copy after it. The command and the members of its arguments
stay as they are. -/
def access (c : Command) (copy : Copy) : Access → Except AccessFault Json × Copy
  | .copy => (.ok c.toJson, some c.args)
  | .changeCopy key value =>
    let args := Keyed.set key value (copy.getD c.args)
    (.ok (c.withArgs args), some args)
  | .changeSource _ _ => (.ok .null, copy)
  | .changeArgument _ _ => (.error .readOnlyArguments, copy)
  | .assign field => (.error (.fixedField field), copy)
  | .delete field => (.error (.keptField field), copy)
  | .list times => (.ok (listToJson (List.replicate times c)), copy)

end Deeplink.Command

import Deeplink.Keyed
import Deeplink.Text

/-!
# The registry of commands

This is `CommandRegistry`, one of the two reference collaborators (specification, 6).

- `Registration`: a handler, and whether its command may be run from a fragment.
- `Registry`: the registrations by the names of their commands.
- `Registry.isSafe`: only a name whose registration says so is safe.
-/

namespace Deeplink

structure Registration (η : Type) where
  handler : η
  isSafe : Bool

/-- The registered commands, in the order in which their names were first registered. -/
structure Registry (η : Type) where
  entries : List (Text × Registration η) := []

namespace Registry

variable {η : Type}

/-- Registers a command; an earlier registration of its name is replaced. -/
def register (name : Text) (r : Registration η) (reg : Registry η) : Registry η :=
  ⟨Keyed.set name r reg.entries⟩

/-- Without the registration of a name, if it has one. -/
def unregister (name : Text) (reg : Registry η) : Registry η :=
  ⟨reg.entries.filter (·.1 ≠ name)⟩

/-- The registration of a name. -/
def get? (name : Text) (reg : Registry η) : Option (Registration η) := reg.entries.lookup name

/-- Whether a name may be run from a fragment. -/
def isSafe (name : Text) (reg : Registry η) : Bool :=
  match reg.get? name with
  | some r => r.isSafe
  | none => false

end Registry

end Deeplink

import Deeplink.Keyed
import Deeplink.Text

/-!
# The table of routes

This is `RouteTable`, the other one of the reference collaborators (specification, 6).

- `RouteTable`: the handlers of the routes by their names, the current route, and the routes
  that have been navigated to. A route may have no handler.
- `RouteTable.arrive`: ends a navigation.
-/

namespace Deeplink

/-- The routes, in the order in which their names were first registered. -/
structure RouteTable (η : Type) where
  entries : List (Text × Option η) := []
  current : Option Text := none
  history : List Text := []

namespace RouteTable

variable {η : Type}

/-- Registers a route; an earlier registration of its name is replaced. -/
def register (name : Text) (handler : Option η) (t : RouteTable η) : RouteTable η :=
  { t with entries := Keyed.set name handler t.entries }

/-- The registration of a name: its handler, if it has one. -/
def get? (name : Text) (t : RouteTable η) : Option (Option η) := t.entries.lookup name

def isRegistered (name : Text) (t : RouteTable η) : Bool := (t.get? name).isSome

/-- Makes a route the current one, and the last of the history. -/
def arrive (name : Text) (t : RouteTable η) : RouteTable η :=
  { t with current := some name, history := t.history ++ [name] }

end RouteTable

end Deeplink

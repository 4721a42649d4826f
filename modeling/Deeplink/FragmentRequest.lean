import Deeplink.Act
import Deeplink.Settings

/-!
# Requests for a fragment

A request gives a fragment under the member `hash`, which may be left out. The settings bound its
length. Bodies are validated before anything else (specification, 6).

- `FragmentRequest.current`: the settings of a store, built if they have not been yet.
- `FragmentRequest.withinLimit`: a text that is not too long. Faults of the settings are
  reported as errors of the text.
- `FragmentRequest.check`: the fragment of a request.
-/

namespace Deeplink.FragmentRequest

/-- The settings of a store, built if they have not been yet. -/
def current : Act Settings.Store (Except Settings.Fault Settings) := fun store =>
  let (result, after) := store.get
  ⟨.ok (result.map Prod.fst), after, []⟩

/-- A text of at most `limit` code points. -/
def checkLength (limit : Int) (t : Text) : Checked Text :=
  if limit < t.length then
    Validation.fails (.rejected ("hash longer than " ++ Text.ofInt limit ++ " characters"))
  else .ok t

/-- A text that the settings do not find too long. -/
def withinLimit (t : Text) : Act Settings.Store (Checked Text) := do
  match ← current with
  | .ok s => return checkLength s.hashMaxLength t
  | .error (.invalid errors) => return .error errors
  | .error (.unreadable _) => return Validation.fails (.rejected Settings.unreadableMessage)
  | .error (.nesting inside) => Act.fail (Failure.ofSettings (.nesting inside))

/-- The fragment of a request; without one it is empty. `otherwise` is the problem of data that
is no object. -/
def check (otherwise : Problem) (v : Json) : Act Settings.Store (Checked Text) :=
  match v with
  | .obj members =>
    match Json.member? "hash" members with
    | none => pure (.ok [])
    | some (.str t) => do return Validation.inField "hash" (← withinLimit t)
    | some _ => pure (Validation.inField "hash" (Validation.fails .notText))
  | _ => pure (Validation.fails otherwise)

end Deeplink.FragmentRequest

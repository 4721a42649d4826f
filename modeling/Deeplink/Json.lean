import Deeplink.Binary64
import Deeplink.Keyed
import Deeplink.Text

/-!
# JSON values

- `Json`: integers of any size and floating-point numbers are different values; the
  members of an object keep their order.
- `Json.collect`: the members of an object from the pairs of its text: the last pair of a
  key gives the value, the first one its place.
- `Json.agrees`: equality of values. Numbers agree by value, whatever their kind, and
  objects agree whatever the order of their members.
-/

namespace Deeplink

inductive Json where
  | null
  | bool (b : Bool)
  | int (n : Int)
  | float (x : Binary64)
  | str (s : Text)
  | arr (items : List Json)
  | obj (members : List (Text × Json))
  deriving Inhabited

/-- The arguments of a command are the members of an object. -/
abbrev Args := List (Text × Json)

namespace Json

/-! ## Members -/

/-- The value of a member. -/
def member? (key : Text) (members : List (Text × Json)) : Option Json :=
  members.lookup key

/-- The members that a list of pairs gives, set one after the other. -/
def collect (pairs : List (Text × Json)) : List (Text × Json) :=
  pairs.foldl (fun members (k, v) => Keyed.set k v members) []

/-- The string, if the value is one. -/
def str? : Json → Option Text
  | .str s => some s
  | _ => none

/-- The members, if the value is an object. -/
def obj? : Json → Option (List (Text × Json))
  | .obj members => some members
  | _ => none

/-- What messages call the kind of a value. -/
def kindName : Json → Text
  | .null => "NoneType"
  | .bool _ => "bool"
  | .int _ => "int"
  | .float _ => "float"
  | .str _ => "str"
  | .arr _ => "list"
  | .obj _ => "dict"

/-! ## Agreement -/

/-- The value of a number. Finite values count units of `2⁻¹⁰⁷⁴`. -/
inductive Magnitude where
  | finite (units : Int)
  | infinite (negative : Bool)
  deriving DecidableEq

/-- The value of a floating-point number; the number that is none has no value. -/
def magnitudeOf? (x : Binary64) : Option Magnitude :=
  if x.isNaN then none
  else if x.isInfinite then some (.infinite x.isNegative)
  else some (.finite x.scaled)

/-- Integers and floating-point numbers have values, and so have booleans: one and zero. -/
def magnitude? : Json → Option Magnitude
  | .bool b => some (.finite (if b then Binary64.unitsPerOne else 0))
  | .int n => some (.finite (n * Binary64.unitsPerOne))
  | .float x => magnitudeOf? x
  | _ => none

/-- Two numbers of the same value. -/
def sameNumber (a b : Json) : Bool :=
  match a.magnitude?, b.magnitude? with
  | some m, some n => m = n
  | _, _ => false

mutual

/-- Whether two values are equal as data. -/
def agrees : Json → Json → Bool
  | .null, .null => true
  | .str s, .str t => s = t
  | .arr xs, .arr ys => itemsAgree xs ys
  | .obj ms, .obj ns => ms.length = ns.length && membersAgree ms ns
  | a, b => sameNumber a b

/-- Pairwise agreement of two lists of one length. -/
def itemsAgree : List Json → List Json → Bool
  | [], [] => true
  | x :: xs, y :: ys => agrees x y && itemsAgree xs ys
  | _, _ => false

/-- Each member has a counterpart of the same key whose value agrees. -/
def membersAgree : List (Text × Json) → List (Text × Json) → Bool
  | [], _ => true
  | (k, v) :: ms, ns =>
    (match member? k ns with
      | some w => agrees v w
      | none => false)
    && membersAgree ms ns

end

end Json

end Deeplink

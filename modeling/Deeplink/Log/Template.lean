import Deeplink.Log.Template.Field

/-!
# Message templates

- `Template.Arguments`: arguments in order, or one container whose members have keys.
- `Template.fill`: the template with its arguments in place. All arguments have to be used,
  unless they are a container.
-/

namespace Deeplink.Template

open Log (Attribute)

/-! ## Arguments -/

/-- Arguments in order, or a container. A container can be used up as one argument, `next`. -/
inductive Arguments where
  | ordered (values : List Attribute)
  | container (v : Json) (next : Option Json)

namespace Arguments

/-- One value: an object or a list is a container. -/
def ofAttribute : Attribute → Arguments
  | .data (.obj ms) => .container (.obj ms) (some (.obj ms))
  | .data (.arr items) => .container (.arr items) (some (.arr items))
  | v => .ordered [v]

/-- A single object that is not empty is a container; all else is taken in order. -/
def ofList : List Json → Arguments
  | [.obj (m :: ms)] => ofAttribute (.data (.obj (m :: ms)))
  | values => .ordered (values.map .data)

/-- The next argument. -/
def next : Arguments → Except Fault (Attribute × Arguments)
  | .ordered (v :: rest) => .ok (v, .ordered rest)
  | .container whole (some v) => .ok (.data v, .container whole none)
  | _ => .error .exhausted

/-- The member of a key. -/
def member (key : Text) (v : Json) : Except Fault Json :=
  match v with
  | .obj ms =>
    match Json.member? key ms with
    | some v => .ok v
    | none => .error (.missingKey key)
  | _ => .error .needsIndex

/-- Makes the member of a key the next argument. -/
def select : Key → Arguments → Except Fault Arguments
  | .none, args => .ok args
  | _, .ordered _ => .error .needsMembers
  | .unclosed, _ => .error .incompleteKey
  | .closed key, .container whole _ => do return .container whole (some (← member key whole))

/-- Only arguments in order have to be used up. -/
def isUsedUp : Arguments → Bool
  | .ordered (_ :: _) => false
  | _ => true

end Arguments

/-- Whether a size that an argument gives is not too big. -/
def SizePart.holds (part : SizePart) (n : Int) : Bool :=
  -(part.limit : Int) ≤ n && n < part.limit

/-- The size that an argument gives. -/
def sizeOfArgument (part : SizePart) (v : Attribute) : Except Fault Int :=
  match v with
  | .data (.int n) => if part.holds n then .ok n else .error (.sizeOutOfRange part)
  | .data (.bool b) => .ok (if b then 1 else 0)
  | _ => .error .needsSize

/-- A size, taken from the arguments if a star says so. -/
def sizeOf? (part : SizePart) (size : Option Size) (args : Arguments) :
    Except Fault (Option Int × Arguments) :=
  match size with
  | none => .ok (none, args)
  | some (.fixed n) =>
    if n < part.limit then .ok (some n, args) else .error (.sizeTooBig part)
  | some .next => do
    let (v, rest) ← args.next
    return (some (← sizeOfArgument part v), rest)

/-! ## Filling -/

/-- One conversion. -/
def fillOne (c : Conversion) (args : Arguments) : Except Fault (Text × Arguments) := do
  let args ← args.select c.key
  let (width, args) ← sizeOf? .width c.width args
  let (precision, args) ← sizeOf? .precision c.precision args
  match c.letter with
  | none => .error .incomplete
  | some (letter, index) => do
    let (v, args) ← args.next
    let t ← fitted (.ofWidth c.flags (width.getD 0)) fun l =>
      converted l (precision.map Int.toNat) letter index v
    return (t, args)

/-- The pieces in order. -/
def fillPieces : List Piece → Arguments → Except Fault Text
  | [], args => if args.isUsedUp then .ok [] else .error .unused
  | .literal c :: ps, args => return c :: (← fillPieces ps args)
  | .conversion c :: ps, args => do
    let (front, args) ← fillOne c args
    return front ++ (← fillPieces ps args)

/-- The template with its arguments in place. -/
def fill (template : Text) (args : Arguments) : Except Fault Text :=
  fillPieces (pieces template) args

end Deeplink.Template

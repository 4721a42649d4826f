import Deeplink.Log.Level
import Deeplink.Text.Quoted

/-!
# The root of the log

The handlers of the root are shared with other code; the service owns one of them. The root is set
up by `setup_logging` (specification, 10.2).

- `Log.Form`: what a handler writes: JSON lines, or lines of text.
- `Log.Handler`: a handler that the service has installed, or one of other code.
- `Log.Root`: the handlers in order, the level, and the handler that the service owns.
- `Log.Root.install`: replaces the handler of the service by a new one, at the end.
- `Log.Root.setUp`: installs a handler and then sets the level.
-/

namespace Deeplink.Log

/-! ## Handlers -/

/-- What a handler writes. -/
inductive Form where
  | jsonLines
  | textLines
  deriving DecidableEq

namespace Form

/-- Only the name `json` asks for JSON lines. -/
def ofName (t : Text) : Form := if t = "json" then .jsonLines else .textLines

/-- The pattern of a line of text. -/
def pattern? : Form → Option Text
  | .jsonLines => none
  | .textLines => some "%(asctime)s %(levelname)s %(name)s: %(message)s"

def name : Form → Text
  | .jsonLines => "JSONFormatter"
  | .textLines => "Formatter"

end Form

/-- A handler: the service counts those that it installs; other code names its own. -/
inductive Handler where
  | own (serial : Nat) (form : Form)
  | foreign (label : Nat)
  deriving DecidableEq

/-- What a handler writes; that of other code is unknown. -/
def Handler.form? : Handler → Option Form
  | .own _ form => some form
  | .foreign _ => none

/-- The handlers of the root in order, its level, the handler that the service owns, and how
many it has installed so far. -/
structure Root where
  handlers : List Handler := []
  level : Int := 30
  current : Option Handler := none
  installed : Nat := 0
  deriving DecidableEq

/-! ## Faults -/

/-- Why a level cannot be set. -/
inductive LevelFault where
  | unknown (value : Text)
  | notALevel (shown : Text)
  deriving DecidableEq

def LevelFault.message : LevelFault → Text
  | .unknown value => "Unknown level: " ++ Text.quoted value
  | .notALevel shown => "Level not an integer or a valid string: " ++ shown

/-- The pattern that the logging system uses where none is given. -/
def recordFormat : Text := "%(levelname)s:%(name)s:%(message)s"

/-- How the styles of patterns are shown. -/
def formatStyles : Text :=
  "\x7b'%': (<class 'logging.PercentStyle'>, '%(levelname)s:%(name)s:%(message)s'), "
    ++ "'\x7b': (<class 'logging.StrFormatStyle'>, "
    ++ "'\x7blevelname\x7d:\x7bname\x7d:\x7bmessage\x7d'), "
    ++ "'$': (<class 'logging.StringTemplateStyle'>, "
    ++ "'$\x7blevelname\x7d:$\x7bname\x7d:$\x7bmessage\x7d')\x7d"

namespace Root

/-! ## Setting up -/

/-- What the handler of the service writes. -/
def form? (r : Root) : Option Form := r.current.bind Handler.form?

/-- Without the handler that the service owns. -/
def withoutOwn (r : Root) : List Handler :=
  match r.current with
  | none => r.handlers
  | some h => r.handlers.erase h

/-- Replaces the handler of the service by a new one at the end. -/
def install (form : Form) (r : Root) : Root :=
  let h := Handler.own r.installed form
  { r with
    handlers := r.withoutOwn ++ [h]
    current := some h
    installed := r.installed + 1 }

/-- Sets the level that a name stands for. -/
def setLevel (name : Text) (r : Root) : Except LevelFault Unit × Root :=
  match resolve name with
  | .level n => (.ok (), { r with level := n })
  | .recordFormat => (.error (.unknown recordFormat), r)
  | .formatStyles => (.error (.notALevel formatStyles), r)

/-- Installs a handler of the form, then sets the level. -/
def setUp (level form : Text) (r : Root) : Except LevelFault Unit × Root :=
  (r.install (Form.ofName form)).setLevel level

end Root

end Deeplink.Log

import Deeplink.Text

/-!
# Log levels

The level of the log is a setting (specification, 10.1), and it is given by name.

- `Log.Level`: the levels that the service logs at.
- `Log.levelName`: the name of any level number.
- `Log.capitals?`: a text in capitals, if they are all ASCII.
- `Log.resolve`: the level that a name of any case stands for; unknown names mean `INFO`.
-/

namespace Deeplink.Log

/-! ## Levels -/

/-- The levels that the service logs at. -/
inductive Level where
  | debug
  | info
  | warning
  | error
  deriving DecidableEq

def Level.number : Level → Int
  | .debug => 10
  | .info => 20
  | .warning => 30
  | .error => 40

/-- The name of a level number; a number without one is named by itself. -/
def levelName (n : Int) : Text :=
  if n = 0 then "NOTSET"
  else if n = 10 then "DEBUG"
  else if n = 20 then "INFO"
  else if n = 30 then "WARNING"
  else if n = 40 then "ERROR"
  else if n = 50 then "CRITICAL"
  else "Level " ++ Text.ofInt n

def Level.name (l : Level) : Text := levelName l.number

/-! ## Names -/

/-- The capitals of a code point, if they are ASCII: besides the ASCII letters only the
dotless i, the long and the sharp s, and seven ligatures have such capitals. -/
def asciiCapitals? (c : CodePoint) : Option (List Char) :=
  let n := c.toNat
  if n < 0x80 then c.char?.map fun c => [c.toUpper]
  else if n = 0xDF then some ['S', 'S']
  else if n = 0x131 then some ['I']
  else if n = 0x17F then some ['S']
  else if n = 0xFB00 then some ['F', 'F']
  else if n = 0xFB01 then some ['F', 'I']
  else if n = 0xFB02 then some ['F', 'L']
  else if n = 0xFB03 then some ['F', 'F', 'I']
  else if n = 0xFB04 then some ['F', 'F', 'L']
  else if n = 0xFB05 then some ['S', 'T']
  else if n = 0xFB06 then some ['S', 'T']
  else none

/-- The text in capitals, if they are all ASCII. -/
def capitals? (t : Text) : Option (List Char) :=
  (t.mapM asciiCapitals?).map List.flatten

/-- What a level name stands for: a level, or one of two settings of the logging system
that are no levels. -/
inductive Resolved where
  | level (n : Int)
  | recordFormat
  | formatStyles
  deriving DecidableEq

/-- The names that are known, in capitals. -/
def knownNames : List (List Char × Resolved) :=
  [("CRITICAL".toList, .level 50), ("FATAL".toList, .level 50), ("ERROR".toList, .level 40),
    ("WARNING".toList, .level 30), ("WARN".toList, .level 30), ("INFO".toList, .level 20),
    ("DEBUG".toList, .level 10), ("NOTSET".toList, .level 0),
    ("BASIC_FORMAT".toList, .recordFormat), ("_STYLES".toList, .formatStyles)]

/-- What a name of any case stands for; an unknown one stands for `INFO`. -/
def resolve (name : Text) : Resolved :=
  ((capitals? name).bind fun cs => knownNames.lookup cs).getD (.level 20)

end Deeplink.Log

import Deeplink.Command
import Deeplink.Failure
import Deeplink.Log.Notice

/-!
# Signals

What work on the state shows to the outside, in the order in which it happens. The sink is told a
message and a failure (specification, 6).

- `Diagnostic`: what a diagnostic sink is told about undecodable arguments.
- `Event`: what handlers and safety checks show of themselves.
- `Signal`: a notice, a diagnostic or an event.
-/

namespace Deeplink

/-- Arguments that could not be decoded. -/
structure Diagnostic where
  fault : ArgumentsFault
  deriving DecidableEq

namespace Diagnostic

/-- What a sink is told before the fault. -/
def message (_ : Diagnostic) : Text := "Hash commands JSON args cannot be parsed. \n\n"

/-- The notice that stands in for a sink where there is none. -/
def notice (d : Diagnostic) : Log.Notice :=
  { level := .warning
    source := .fragment
    message := d.message ++ d.fault.message
    exception := some d.fault.className }

/-- The notice about a sink that fails. -/
def sinkNotice (e : Failure) : Log.Notice :=
  { level := .error
    source := .fragment
    message := "Diagnostic sink failed while reporting bad args"
    exception := some e.className }

end Diagnostic

/-- What handlers and safety checks show of themselves. A label is the name of a handler,
after its method if a table of families holds it. -/
inductive Event where
  | called (label : List Text) (args : Args)
  | finished (label : List Text)
  | checked (method name : Text)
  | said (text : Text)
  | got (value : Json)
  | routed (current : Option Text) (history : List Text)
  | held (commands : List Command)
  | nested (count : Nat)

inductive Signal where
  | notice (n : Log.Notice)
  | diagnostic (d : Diagnostic)
  | event (e : Event)

end Deeplink

import Deeplink.Fragment
import Deeplink.Task

/-!
# Dispatch

A dispatcher takes a sequence of commands to the families that run them. The whole sequence is
checked before any command runs, and each command settles before the next one starts. This is
`CommandDispatch` (specification, 4.2); a family is an entry of its method table, and the desk holds
its slot for the pending sequence (3).

- `Family`: how the commands of one method are run, and which of them may run.
- `Table`: the families by their methods.
- `Desk`: what a dispatcher works on: the pending commands, and the host around them.
- `Dispatcher.validate`: refuses a sequence at its first unknown or unsafe command.
- `Dispatcher.run`: validates a sequence, then runs it. A failure ends the run; what has been
  done stays done.
- `Dispatcher.runFragment`: reads a fragment and runs its commands.
- `Dispatcher.runOnce`: runs the pending commands and clears them if all succeed.
-/

namespace Deeplink

/-! ## The desk -/

/-- The commands that wait to be run, and the state of the host. -/
structure Desk (ρ : Type) where
  pending : List Command
  host : ρ

namespace Desk

variable {ρ α : Type}

/-- An act of the host; it cannot touch the pending commands. -/
def onHost (x : Act ρ α) : Act (Desk ρ) α :=
  x.focus Desk.host fun host desk => { desk with host }

end Desk

/-! ## Families -/

/-- How the commands of one method are run, and which of them may run. A safety check sees
the name of a command only. -/
structure Family (ρ : Type) where
  run : Text → Args → Task (Desk ρ) Json
  isSafe : Text → Act ρ Bool

/-- The families by their methods. -/
abbrev Table (ρ : Type) := List (Text × Family ρ)

namespace Table

variable {ρ : Type}

/-- The methods of a table, in order. -/
def methods (t : Table ρ) : List Text := t.map (·.1)

/-- Sets the family of a method in its place, or adds it at the end. -/
def set (method : Text) (family : Family ρ) (t : Table ρ) : Table ρ :=
  Keyed.set method family t

end Table

/-- A table of families, and where undecodable arguments are reported. -/
structure Dispatcher (ρ : Type) where
  table : Table ρ
  sink : Option (Sink ρ)

namespace Dispatcher

variable {ρ : Type}

/-! ## Reading fragments -/

/-- The methods that have a family, in order. -/
def methods (d : Dispatcher ρ) : List Text := d.table.methods

/-- The commands of a fragment. -/
def parse (d : Dispatcher ρ) (raw : Option Text) : Act ρ (List Command) :=
  Fragment.parse d.methods d.sink raw

/-- Replaces the pending commands by those of a fragment: `load` (4.2). -/
def load (d : Dispatcher ρ) (raw : Option Text) : Act (Desk ρ) (List Command) := do
  let commands ← Desk.onHost (d.parse raw)
  Act.modify fun desk => { desk with pending := commands }
  Act.emit (.notice {
    level := .debug
    source := .dispatch
    message := "Loaded " ++ Text.ofNat commands.length ++ " hash command(s)" })
  return commands

/-! ## Validation -/

/-- What a notice about the command at a position refers to. -/
def context (c : Command) (position : Nat) (errorCode : Option Text) : Log.Context :=
  { method := some c.method
    command := some c.name
    errorCode
    position := some position }

/-- The place of the command at a position. -/
def place (c : Command) (position : Nat) : CommandError.Place :=
  { method := some c.method
    command := some c.name
    position := some position }

/-- Refuses the sequence because of the command at a position. -/
def refuse (c : Command) (position : Nat) (refusal : Refusal) : Act ρ Unit := do
  let cause := CommandError.Cause.rejected refusal
  Act.emit (.notice {
    level := .warning
    source := .dispatch
    message := cause.message
    context := context c position (some cause.code) })
  Act.fail (Failure.ofCommand cause (place c position))

/-- Checks the command at a position. -/
def check (d : Dispatcher ρ) (c : Command) (position : Nat) : Act ρ Unit :=
  match d.table.lookup c.method with
  | none => refuse c position (.noFamily c.name)
  | some family => do
    if ← family.isSafe c.name then return ()
    else refuse c position (.notSafe c.name)

/-- Checks the commands one after the other; the first has the given position. -/
def validateFrom (d : Dispatcher ρ) (position : Nat) : List Command → Act ρ Unit
  | [] => pure ()
  | c :: cs => do
    d.check c position
    d.validateFrom (position + 1) cs

/-- Checks a whole sequence: `validate` (4.2). -/
def validate (d : Dispatcher ρ) (cs : List Command) : Act ρ Unit := d.validateFrom 0 cs

/-! ## Running -/

/-- What follows when the command at a position has settled. A failure that is caught is wrapped;
what escapes is passed on as it is. -/
def settle (c : Command) (position : Nat) : Except Failure Json → Task (Desk ρ) Unit
  | .ok _ =>
    Task.signal (.notice {
      level := .debug
      source := .dispatch
      message := "Ran " ++ c.method ++ " `" ++ c.name ++ "`"
      context := context c position none })
  | .error e =>
    match e.escaping? with
    | some escaping => Task.fail escaping
    | none => do
      let cause := CommandError.Cause.execution c.name e.message
      Task.signal (.notice {
        level := .error
        source := .dispatch
        message := cause.message
        context := context c position (some cause.code) })
      Task.fail (Failure.causedBy (.command ⟨cause, place c position⟩) e)

/-- Runs the command at a position. Parsed and validated commands have a family; that there is none
would not be a failure of the command. -/
def runAt (d : Dispatcher ρ) (c : Command) (position : Nat) : Task (Desk ρ) Unit :=
  match d.table.lookup c.method with
  | none => Task.fail (Failure.of (.raised .key c.method))
  | some family => do
    let result ← (family.run c.name c.args).attempt
    settle c position result

/-- Runs the commands one after the other; the first has the given position. -/
def runFrom (d : Dispatcher ρ) (position : Nat) : List Command → Task (Desk ρ) Unit
  | [] => pure ()
  | c :: cs => do
    d.runAt c position
    d.runFrom (position + 1) cs

/-- Validates a whole sequence, then runs it: `run` (4.2). The result is the number of commands. -/
def run (d : Dispatcher ρ) (cs : List Command) : Task (Desk ρ) Nat := do
  Task.ofAct (Desk.onHost (d.validate cs))
  d.runFrom 0 cs
  return cs.length

/-- Runs the commands of a fragment; the pending ones stay. -/
def runFragment (d : Dispatcher ρ) (raw : Option Text) : Task (Desk ρ) Nat := do
  let commands ← Task.ofAct (Desk.onHost (d.parse raw))
  d.run commands

/-- Runs the pending commands. -/
def runPending (d : Dispatcher ρ) : Task (Desk ρ) Nat := do
  let desk ← Task.get
  d.run desk.pending

/-- Runs the pending commands, and clears them if all succeed: `run_once` (4.2). -/
def runOnce (d : Dispatcher ρ) : Task (Desk ρ) Nat := do
  let count ← d.runPending
  Task.modify fun desk => { desk with pending := [] }
  return count

end Dispatcher

end Deeplink

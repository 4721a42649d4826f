import Deeplink.Dispatch

/-!
# Runners

How one command is run (specification, 4.2). The family of a command is looked up first; what
comes of its runner is caught, and what comes of the look-up is not.

- `Failure.escaping?_eq_some_iff`: what escapes is not caught, or it is raised by a text.
- `Dispatcher.runner`: the runner of a command.
- `Dispatcher.runAt_of_knows`: a command with a family is run by its runner, and its end is settled.
- `Dispatcher.runAt_cases`: what holds of that, and of the failure of a look-up, holds of every
  command.
- `Dispatcher.settled`: the result of a command from that of its runner.
-/

namespace Deeplink

/-! ## What escapes -/

namespace Failure

/-- What escapes is a failure that is not caught, or what fails when the text of a caught one is
made. -/
theorem escaping?_eq_some_iff {e escaping : Failure} : e.escaping? = some escaping
    ↔ (e.isOrdinary = true ∧ e.fault.textFailure? = some escaping)
      ∨ (e.isOrdinary = false ∧ escaping = e) := by
  unfold escaping?
  cases e.isOrdinary with
  | true => simp
  | false => simp [eq_comm]

/-- Only a caught failure with a text leaves nothing to escape. -/
theorem escaping?_eq_none_iff {e : Failure} :
    e.escaping? = none ↔ e.isOrdinary = true ∧ e.fault.textFailure? = none := by
  unfold escaping?
  cases e.isOrdinary with
  | true => simp
  | false => simp

/-- The end of the program is not caught, even if it has a cause. -/
example (message : Text) (cause : Failure) :
    (causedBy (.raised .exit message) cause).escaping?
      = some (causedBy (.raised .exit message) cause) := rfl

/-- A text that cannot be made hides the failure whose text it is. -/
example (failure : Failure) : (of (.textless .value failure)).escaping? = some failure := rfl

end Failure

namespace Dispatcher

variable {ρ : Type}

/-! ## One command -/

/-- Whether the method of a command has a family. -/
def knows (d : Dispatcher ρ) (c : Command) : Bool := (d.table.lookup c.method).isSome

/-- The failure of a look-up: the command has no family. -/
def unknownMethod (c : Command) : Failure := Failure.of (.raised .key c.method)

/-- The runner of a command. Parsed and validated commands have one. -/
def runner (d : Dispatcher ρ) (c : Command) : Task (Desk ρ) Json :=
  match d.table.lookup c.method with
  | none => Task.fail (unknownMethod c)
  | some family => family.run c.name c.args

section RunAt

variable {d : Dispatcher ρ} {c : Command}

theorem runAt_of_knows (h : d.knows c = true) (position : Nat) :
    d.runAt c position = (d.runner c).attempt.bind (settle c position) := by
  obtain ⟨family, hfamily⟩ := Option.isSome_iff_exists.mp h
  rw [runAt, runner, hfamily]
  rfl

theorem runAt_of_not_knows (h : d.knows c = false) (position : Nat) :
    d.runAt c position = Task.fail (unknownMethod c) := by
  have hnone : d.table.lookup c.method = none := by simpa [knows] using h
  rw [runAt, hnone]
  rfl

/-- What holds of a runner whose end is settled, and of the failure of a look-up, holds of every
command at its position. -/
theorem runAt_cases {P : Task (Desk ρ) Unit → Prop} (d : Dispatcher ρ) (c : Command)
    (position : Nat) (hrunner : P ((d.runner c).attempt.bind (settle c position)))
    (hunknown : P (Task.fail (unknownMethod c))) : P (d.runAt c position) := by
  cases h : d.knows c with
  | true => exact runAt_of_knows h position ▸ hrunner
  | false => exact runAt_of_not_knows h position ▸ hunknown

end RunAt

/-! ## What runners end with -/

/-- The failure of a run because of the failure of the command at a position. -/
def breakdown (c : Command) (position : Nat) (e : Failure) : Failure :=
  Failure.causedBy (.command ⟨.execution c.name e.message, place c position⟩) e

/-- The result of a command from that of its runner: a failure is wrapped, unless something
escapes. -/
def settled (c : Command) (position : Nat) : Except Failure Json → Except Failure Unit
  | .ok _ => .ok ()
  | .error e => .error (e.escaping?.getD (breakdown c position e))

/-- What holds of the end of a command, with a record in front of it and without one, holds of what
settles the command. -/
theorem settle_cases {P : Task (Desk ρ) Unit → Prop} (c : Command) (position : Nat)
    (r : Except Failure Json) (hrecord : ∀ n, P (.emit (.notice n) (.done (settled c position r))))
    (hsilent : P (.done (settled c position r))) : P (settle c position r) := by
  cases r with
  | ok v => exact hrecord _
  | error e =>
    cases h : e.escaping? with
    | none =>
      simp only [settle, h]
      simp only [settled, h] at hrecord
      exact hrecord _
    | some escaping =>
      simp only [settle, h]
      simp only [settled, h] at hsilent
      exact hsilent

end Dispatcher

end Deeplink

import Deeplink.Proofs.Dispatch.Validation
import Deeplink.Proofs.Fragment.Commands

/-!
# What is pending

A dispatcher changes what is pending in two ways only: commands are loaded, and a run of what is
pending clears it when it succeeds. A run cannot do more as long as its runners leave alone what is
pending. These are the two changes of the state machine in the specification (4.2).

- `Desk.SamePending`: the same commands are pending.
- `Dispatcher.LeavesPending`: the runners of a dispatcher do not touch what is pending.
- `Dispatcher.run_keeps_pending`: then a run does not either.
- `Dispatcher.load_of_ok`, `Dispatcher.load_of_error`: what a load leaves.
- `Pending.Mark`: what decides which commands are pending.
- `Pending.after`: the last of the marks decides.
-/

namespace Deeplink

variable {ρ : Type}

namespace Desk

/-- The same commands are pending. -/
def SamePending (desk desk' : Desk ρ) : Prop := desk'.pending = desk.pending

theorem SamePending.isPreorder : IsPreorder (SamePending (ρ := ρ)) where
  refl _ := rfl
  trans h h' := h'.trans h

/-- What the host does leaves alone what is pending. -/
theorem onHost_keeps_pending {α : Type} (x : Act ρ α) : (onHost x).Keeps SamePending := fun _ => rfl

end Desk

open Desk (SamePending)

namespace Dispatcher

variable {d : Dispatcher ρ}

/-! ## Loads -/

/-- What is loaded replaces what was pending, and nothing of that is kept. -/
theorem load_of_ok {raw : Option Text} {desk : Desk ρ} {cs : List Command}
    (h : (d.parse raw desk.host).result = .ok cs) :
    ∃ trace, d.load raw desk = ⟨.ok cs, ⟨cs, (d.parse raw desk.host).state⟩, trace⟩ := by
  have hparse : (Desk.onHost (d.parse raw) desk).result = .ok cs := h
  exact ⟨_, by rw [load, Act.bind_of_ok hparse]; rfl⟩

/-- A load that fails leaves alone what is pending. -/
theorem load_of_error {raw : Option Text} {desk : Desk ρ} {e : Failure}
    (h : (d.parse raw desk.host).result = .error e) :
    ∃ trace, d.load raw desk
      = ⟨.error e, ⟨desk.pending, (d.parse raw desk.host).state⟩, trace⟩ := by
  have hparse : (Desk.onHost (d.parse raw) desk).result = .error e := h
  exact ⟨_, by rw [load, Act.bind_of_error hparse]; rfl⟩

/-! ## Runs -/

/-- The runners of a dispatcher do not touch what is pending. -/
def LeavesPending (d : Dispatcher ρ) : Prop :=
  ∀ method family, d.table.lookup method = some family →
    ∀ name args, (family.run name args).Keeps SamePending

/-- A table with one family, whose runner does not. -/
theorem LeavesPending.single {method : Text} {family : Family ρ} {sink : Option (Sink ρ)}
    (h : ∀ name args, (family.run name args).Keeps SamePending) :
    LeavesPending ⟨[(method, family)], sink⟩ := by
  intro method' family' hfamily name args
  rw [List.lookup_cons] at hfamily
  split at hfamily
  · obtain rfl := Option.some.inj hfamily
    exact h name args
  · cases hfamily

/-- Noting calls does not touch what is pending. -/
theorem LeavesPending.watched (h : d.LeavesPending) : d.watched.LeavesPending := by
  intro method family hfamily name args
  rw [watched_lookup, Option.map_eq_some_iff] at hfamily
  obtain ⟨family, hlookup, rfl⟩ := hfamily
  refine .bind (.modify fun _ => rfl) fun _ => .bind (.attempt ?_) fun _ _ => ⟨rfl, trivial⟩
  exact .focus (h method family hlookup name args) fun _ _ h => h

/-- If families leave alone what is pending, then so do runners. -/
theorem runner_keeps_pending (h : d.LeavesPending) (c : Command) :
    (d.runner c).Keeps SamePending :=
  runner_keeps h c

/-- **A run does not touch what is pending** if its runners do not. -/
theorem run_keeps_pending (h : d.LeavesPending) (cs : List Command) :
    (d.run cs).Keeps SamePending :=
  run_keeps (fun _ => Desk.onHost_keeps_pending _) (runner_keeps_pending h) cs

/-- A run of what is pending clears nothing by itself. -/
theorem runPending_keeps_pending (h : d.LeavesPending) : d.runPending.Keeps SamePending :=
  .bind (.get SamePending.isPreorder.refl) fun desk => run_keeps_pending h desk.pending

/-- A run of a fragment does not touch what is pending. -/
theorem runFragment_keeps_pending (h : d.LeavesPending) (raw : Option Text) :
    (d.runFragment raw).Keeps SamePending :=
  .bind (.ofAct (Desk.onHost_keeps_pending _)) fun commands => run_keeps_pending h commands

/-- What a run of the pending commands does when it has succeeded. -/
def clearing (count : Nat) : Task (Desk ρ) Nat :=
  .act (fun desk => { desk with pending := [] }) fun _ => .done (.ok count)

theorem runOnce_eq (d : Dispatcher ρ) : d.runOnce = d.runPending.bind clearing := rfl

end Dispatcher

/-! ## What decides -/

namespace Pending

/-- What decides which commands are pending: a fragment that has been loaded, or a run of what was
pending that has succeeded. -/
inductive Mark where
  | loaded (raw : Option Text)
  | cleared

/-- The commands that are pending behind a mark. -/
def Mark.commands (methods : List Text) : Mark → List Command
  | .loaded raw => Fragment.commands methods raw
  | .cleared => []

/-- The commands that are pending: those of the last fragment that has been loaded, if no run of
what was pending has succeeded since, and none otherwise. -/
def after (methods : List Text) (marks : List Mark) : List Command :=
  match marks.getLast? with
  | none => []
  | some mark => mark.commands methods

@[simp] theorem after_concat (methods : List Text) (marks : List Mark) (mark : Mark) :
    after methods (marks ++ [mark]) = mark.commands methods := by
  rw [after, List.getLast?_concat]

end Pending

end Deeplink

import Deeplink.Proofs.Dispatch.Shadows
import Deeplink.Proofs.Task.Guarantee

/-!
# Watched dispatchers

What a dispatcher asks of its families, written down call by call. A family may do anything when it
is called, and it may show nothing of it; so the calls are noted around the families, where they
cannot reach.

- `Call`: a safety check, the start of a runner, or its end.
- `Watched`: a host, and the calls so far, the oldest first.
- `Dispatcher.watched`: the dispatcher with each of its families watched.
- `Dispatcher.watched_run_shadows`: a watched dispatcher does what the dispatcher does, to the host
  and to the outside.
-/

namespace Deeplink

/-! ## Calls -/

/-- What is asked of a family. -/
inductive Call where
  | checked (method name : Text)
  | started (method name : Text) (args : Args)
  | settled (method name : Text)

namespace Call

def isCheck : Call → Bool
  | .checked _ _ => true
  | _ => false

/-- The safety check of a command. -/
def check (c : Command) : Call := .checked c.method c.name

/-- The start of the runner of a command. -/
def start (c : Command) : Call := .started c.method c.name c.args

end Call

/-- A host, and the calls of its families. -/
structure Watched (ρ : Type) where
  host : ρ
  calls : List Call := []

namespace Watched

variable {ρ α : Type}

/-- One more call. -/
def note (call : Call) (w : Watched ρ) : Watched ρ := { w with calls := w.calls ++ [call] }

/-- An act of the host; it cannot touch the calls. -/
def onHost (x : Act ρ α) : Act (Watched ρ) α :=
  x.focus Watched.host fun host w => { w with host }

/-- The desk without the calls. -/
def forget (desk : Desk (Watched ρ)) : Desk ρ := ⟨desk.pending, desk.host.host⟩

/-- A desk with the calls that another one has. -/
def remember (desk : Desk ρ) (w : Desk (Watched ρ)) : Desk (Watched ρ) :=
  ⟨desk.pending, { w.host with host := desk.host }⟩

/-- One more call on a desk. -/
def noteOn (call : Call) (desk : Desk (Watched ρ)) : Desk (Watched ρ) :=
  { desk with host := desk.host.note call }

/-- What is written down is kept beside the host, and out of its reach. -/
theorem isPart : Task.IsPart (forget (ρ := ρ)) remember where
  part_put _ _ := rfl
  put_part _ := rfl
  put_put _ _ _ := rfl

end Watched

/-! ## Families and dispatchers -/

/-- A family whose calls are noted. A runner has settled when it has ended, in whatever way. -/
def Family.watched {ρ : Type} (method : Text) (f : Family ρ) : Family (Watched ρ) :=
  { run := fun name args => do
      Task.modify (Watched.noteOn (.started method name args))
      ((f.run name args).focus Watched.forget Watched.remember).ensuring
        (Watched.noteOn (.settled method name))
    isSafe := fun name => do
      Act.modify (Watched.note (.checked method name))
      Watched.onHost (f.isSafe name) }

namespace Dispatcher

variable {ρ : Type}

/-- The dispatcher with each of its families watched. -/
def watched (d : Dispatcher ρ) : Dispatcher (Watched ρ) :=
  { table := d.table.map fun entry => (entry.1, entry.2.watched entry.1)
    sink := d.sink.map fun tell diagnostic => Watched.onHost (tell diagnostic) }

/-- A dispatcher that is watched finds the same families, each of them watched. -/
theorem watched_lookup (d : Dispatcher ρ) (method : Text) :
    d.watched.table.lookup method = (d.table.lookup method).map (Family.watched method) := by
  show (d.table.map fun entry => (entry.1, entry.2.watched entry.1)).lookup method = _
  induction d.table with
  | nil => rfl
  | cons entry rest ih =>
    obtain ⟨m, f⟩ := entry
    rw [List.map_cons, List.lookup_cons, List.lookup_cons]
    by_cases hm : method = m
    · subst hm
      simp
    · rw [beq_false_of_ne hm]
      exact ih

/-- Watched or not, a dispatcher has families for the same commands. -/
@[simp] theorem watched_knows (d : Dispatcher ρ) (c : Command) : d.watched.knows c = d.knows c := by
  rw [knows, knows, watched_lookup, Option.isSome_map]

@[simp] theorem watched_methods (d : Dispatcher ρ) : d.watched.methods = d.methods := by
  simp [methods, Table.methods, watched, Function.comp_def]

/-! ## What is watched is not changed -/

section Shadows

open Watched

/-- The notes before and behind a runner are hidden, and so is that of a check. -/
theorem watched_family_shadows (method : Text) (f : Family ρ) :
    (f.watched method).Shadows Watched.host f where
  run := by
    intro name args
    refine .hidden (fun _ => rfl) fun _ => ?_
    exact (Task.Shadows.focus Watched.isPart (f.run name args)).ensuring fun _ => rfl
  isSafe := fun name _ => ⟨rfl, rfl, rfl⟩

/-- **To be watched is no change**: seen on the host, a watched dispatcher does the same. -/
theorem watched_shadows (d : Dispatcher ρ) : d.watched.Shadows Watched.host d where
  table := by
    show Table.Shadows _ (d.table.map fun entry => (entry.1, entry.2.watched entry.1)) d.table
    induction d.table with
    | nil => exact .nil
    | cons entry rest ih => exact .cons (watched_family_shadows entry.1 entry.2) ih
  sink := by
    show Fragment.SinkShadows _ (d.sink.map fun tell diagnostic => Watched.onHost _) d.sink
    cases d.sink with
    | none => exact .none
    | some tell => exact .some fun _ _ => ⟨rfl, rfl, rfl⟩

/-- **Watching a run does not change it**: the run does the same to the pending commands, to the
host and to the outside, and it ends in the same way. -/
theorem watched_run_shadows (d : Dispatcher ρ) (cs : List Command) :
    Task.Shadows forget (d.watched.run cs) (d.run cs) :=
  d.watched_shadows.run cs

/-- A watched dispatcher runs what is pending alike. -/
theorem watched_runPending_shadows (d : Dispatcher ρ) :
    Task.Shadows forget d.watched.runPending d.runPending :=
  d.watched_shadows.runPending

/-- A watched dispatcher clears what is pending alike. -/
theorem watched_runOnce_shadows (d : Dispatcher ρ) :
    Task.Shadows forget d.watched.runOnce d.runOnce :=
  d.watched_shadows.runOnce

end Shadows

end Dispatcher

end Deeplink

import Deeplink.Proofs.Dispatch.Calls
import Deeplink.Proofs.Dispatch.Pending
import Deeplink.Proofs.Task.Ends

/-!
# Histories of a dispatcher

A dispatcher is asked for one thing after another. Each has settled before the next one begins, and
between them, or while a runner is suspended, the host may change in any way: what was safe may not
be any more. By the specification (4.2), only two of the operations change what is pending.

- `Dispatcher.Operation`: what a dispatcher can be asked for.
- `Dispatcher.Operation.task_keeps`: every operation keeps of the host what the families and the
  sink keep of it.
- `Dispatcher.Operation.pending_of_ends`: what one operation does to what is pending.
- `Dispatcher.History`: the operations since a dispatcher has been made of a fragment.
- `Dispatcher.pending_of_history`: what is pending after any of them, and what a run that has failed
  leaves to be tried again.
-/

namespace Deeplink

/-- A task of which only the end is of interest: whether it has failed, and how. -/
def Task.toUnit {σ α : Type} (t : Task σ α) : Task σ Unit := t.bind fun _ => .done (.ok ())

theorem Task.Ends.of_toUnit {σ α : Type} {others : σ → σ → Prop} {t : Task σ α} {s s' : σ}
    {r : Except Failure Unit} (h : Ends others t.toUnit s r s') :
    ∃ x, Ends others t s x s' ∧ r = x.map fun _ => () := by
  rcases h.of_bind with ⟨a, s₁, ht, hdone⟩ | ⟨e, rfl, ht⟩
  · cases hdone with
    | done => exact ⟨.ok a, ht, rfl⟩
  · exact ⟨.error e, ht, rfl⟩

namespace Dispatcher

open Desk (SamePending)

variable {ρ : Type}

/-! ## Operations -/

/-- What a dispatcher can be asked for. -/
inductive Operation where
  | load (raw : Option Text)
  | parse (raw : Option Text)
  | validate (cs : List Command)
  | run (cs : List Command)
  | runPending
  | runOnce

namespace Operation

def task (d : Dispatcher ρ) : Operation → Task (Desk ρ) Unit
  | .load raw => (Task.ofAct (d.load raw)).toUnit
  | .parse raw => (Task.ofAct (Desk.onHost (d.parse raw))).toUnit
  | .validate cs => (Task.ofAct (Desk.onHost (d.validate cs))).toUnit
  | .run cs => (d.run cs).toUnit
  | .runPending => d.runPending.toUnit
  | .runOnce => d.runOnce.toUnit

/-- **Every operation keeps of the host what the families and the sink keep of it.** -/
theorem task_keeps {d : Dispatcher ρ} {R : ρ → ρ → Prop} (hR : IsPreorder R)
    (hask : ∀ c, (d.ask c).Keeps R) (hsink : Fragment.SinkKeeps R d.sink)
    (hrunner : ∀ c, (d.runner c).Keeps fun desk desk' => R desk.host desk'.host)
    (operation : Operation) :
    (operation.task d).Keeps fun desk desk' => R desk.host desk'.host := by
  have hparse (raw : Option Text) :
      (Desk.onHost (d.parse raw)).Keeps fun desk desk' => R desk.host desk'.host :=
    fun desk => Fragment.parse_keeps hR hsink d.methods raw desk.host
  have hvalidate (cs : List Command) :
      (Desk.onHost (d.validate cs)).Keeps fun desk desk' => R desk.host desk'.host :=
    fun desk => validateFrom_keeps hR hask 0 cs desk.host
  have hrun (cs : List Command) : (d.run cs).Keeps fun desk desk' => R desk.host desk'.host :=
    run_keeps hvalidate hrunner cs
  have hpending : d.runPending.Keeps fun desk desk' => R desk.host desk'.host :=
    .bind (.get fun desk => hR.refl desk.host) fun desk => hrun desk.pending
  have hon : IsPreorder fun desk desk' : Desk ρ => R desk.host desk'.host :=
    { refl := fun desk => hR.refl desk.host, trans := hR.trans }
  cases operation with
  | load raw =>
    refine .bind (.ofAct (.bind hon (hparse raw) fun cs => ?_)) fun _ => trivial
    exact fun desk => hR.refl desk.host
  | parse raw => exact .bind (.ofAct (hparse raw)) fun _ => trivial
  | validate cs => exact .bind (.ofAct (hvalidate cs)) fun _ => trivial
  | run cs => exact .bind (hrun cs) fun _ => trivial
  | runPending => exact .bind hpending fun _ => trivial
  | runOnce =>
    exact .bind (.bind hpending fun _ => .bind (.modify fun desk => hR.refl desk.host) fun _ =>
      trivial) fun _ => trivial

/-- Whether an operation may change what is pending. -/
def changesPending : Operation → Bool
  | .load _ | .runOnce => true
  | .parse _ | .validate _ | .run _ | .runPending => false

/-- What an operation that has ended decides about what is pending, if it decides anything. -/
def mark? : Operation → Except Failure Unit → Option Pending.Mark
  | .load raw, .ok _ => some (.loaded raw)
  | .runOnce, .ok _ => some .cleared
  | _, _ => none

theorem mark?_eq_none {operation : Operation} {r : Except Failure Unit}
    (h : operation.changesPending = false ∨ ∃ e, r = .error e) : operation.mark? r = none := by
  rcases h with h | ⟨e, rfl⟩
  · cases operation with
    | load raw => cases h
    | runOnce => cases h
    | _ => rfl
  · cases operation <;> rfl

/-- What does not change what is pending never does so in between either. -/
theorem task_keeps_pending {d : Dispatcher ρ} (hd : d.LeavesPending) {operation : Operation}
    (h : operation.changesPending = false) : (operation.task d).Keeps SamePending := by
  cases operation with
  | load raw => cases h
  | runOnce => cases h
  | parse raw => exact .bind (.ofAct (Desk.onHost_keeps_pending _)) fun _ => trivial
  | validate cs => exact .bind (.ofAct (Desk.onHost_keeps_pending _)) fun _ => trivial
  | run cs => exact .bind (run_keeps_pending hd cs) fun _ => trivial
  | runPending => exact .bind (runPending_keeps_pending hd) fun _ => trivial

section Ends

variable {d : Dispatcher ρ} {desk desk' : Desk ρ} {r : Except Failure Unit}

/-- A load that succeeds leaves the commands of its fragment; one that fails leaves everything. -/
theorem pending_of_load {raw : Option Text}
    (h : Task.Ends SamePending ((load raw).task d) desk r desk') :
    r = .ok () ∧ desk'.pending = Fragment.commands d.methods raw
      ∨ (∃ e, r = .error e) ∧ desk'.pending = desk.pending := by
  obtain ⟨x, hx, rfl⟩ := h.of_toUnit
  obtain ⟨rfl, rfl⟩ := hx.of_ofAct
  cases hparse : (d.parse raw desk.host).result with
  | ok cs =>
    obtain ⟨trace, hload⟩ := load_of_ok hparse
    rw [hload]
    exact .inl ⟨rfl, Fragment.eq_commands_of_parse hparse⟩
  | error e =>
    obtain ⟨trace, hload⟩ := load_of_error hparse
    rw [hload]
    exact .inr ⟨⟨e, rfl⟩, rfl⟩

/-- A run that succeeds clears what is pending; one that fails leaves all of it. -/
theorem pending_of_runOnce (hd : d.LeavesPending)
    (h : Task.Ends SamePending (runOnce.task d) desk r desk') :
    r = .ok () ∧ desk'.pending = [] ∨ (∃ e, r = .error e) ∧ desk'.pending = desk.pending := by
  obtain ⟨x, hx, rfl⟩ := h.of_toUnit
  rw [runOnce_eq] at hx
  have hkeeps := runPending_keeps_pending hd
  rcases hx.of_bind with ⟨count, desk₁, -, hclear⟩ | ⟨e, rfl, hrun⟩
  · -- the run is over, and all that follows is the change of what is pending
    cases hclear with
    | act hdone =>
      cases hdone with
      | done => exact .inl ⟨rfl, rfl⟩
  · exact .inr ⟨⟨e, rfl⟩, hrun.keeps SamePending.isPreorder id hkeeps⟩

/-- **What one operation does to what is pending**: its mark decides, and without one everything
stays. -/
theorem pending_of_ends (hd : d.LeavesPending) {operation : Operation}
    (h : Task.Ends SamePending (operation.task d) desk r desk') :
    desk'.pending = (operation.mark? r).elim desk.pending (Pending.Mark.commands d.methods) := by
  cases hchanges : operation.changesPending with
  | false =>
    rw [mark?_eq_none (.inl hchanges)]
    exact h.keeps SamePending.isPreorder id (task_keeps_pending hd hchanges)
  | true =>
    cases operation with
    | load raw =>
      rcases pending_of_load h with ⟨rfl, hpending⟩ | ⟨⟨e, rfl⟩, hpending⟩
      · exact hpending
      · exact hpending
    | runOnce =>
      rcases pending_of_runOnce hd h with ⟨rfl, hpending⟩ | ⟨⟨e, rfl⟩, hpending⟩
      · exact hpending
      · exact hpending
    | _ => cases hchanges

/-- A load fails only if the sink is cancelled. -/
theorem ok_of_load (hsink : ∀ tell ∈ d.sink, ∀ diagnostic host e,
      (tell diagnostic host).result = .error e → e.isOrdinary = true) {raw : Option Text}
    (h : Task.Ends SamePending ((load raw).task d) desk r desk') : r = .ok () := by
  obtain ⟨x, hx, rfl⟩ := h.of_toUnit
  obtain ⟨rfl, -⟩ := hx.of_ofAct
  obtain ⟨trace, hload⟩ := load_of_ok (Fragment.parse_of_ordinary hsink raw desk.host)
  rw [hload]
  rfl

end Ends

end Operation

/-! ## Histories -/

/-- The operations since the dispatcher has been made of a fragment, each with its end, and the desk
after them. -/
inductive History (d : Dispatcher ρ) (raw : Option Text) :
    List (Operation × Except Failure Unit) → Desk ρ → Prop where
  | made {host host' : ρ} {cs : List Command} {trace : List Signal}
      (h : d.parse raw host = ⟨.ok cs, host', trace⟩) : History d raw [] ⟨cs, host'⟩
  | settled {before : List (Operation × Except Failure Unit)} {desk desk₁ desk' : Desk ρ}
      (h : History d raw before desk) (hothers : SamePending desk desk₁) {operation : Operation}
      {r : Except Failure Unit} (hends : Task.Ends SamePending (operation.task d) desk₁ r desk') :
      History d raw (before ++ [(operation, r)]) desk'

/-- What has been decided about what is pending: by the fragment that a dispatcher has been made of,
and since. -/
def marks (raw : Option Text) (history : List (Operation × Except Failure Unit)) :
    List Pending.Mark :=
  .loaded raw :: history.filterMap fun (operation, r) => operation.mark? r

theorem marks_concat (raw : Option Text) (before : List (Operation × Except Failure Unit))
    (operation : Operation) (r : Except Failure Unit) :
    marks raw (before ++ [(operation, r)]) = marks raw before ++ (operation.mark? r).toList := by
  rw [marks, List.filterMap_append, marks, List.cons_append]
  cases h : operation.mark? r <;> simp [h]

/-- **The last mark of a history says what is pending.** -/
theorem History.pending {d : Dispatcher ρ} (hd : d.LeavesPending) {raw : Option Text}
    {history : List (Operation × Except Failure Unit)} {desk : Desk ρ}
    (h : History d raw history desk) :
    desk.pending = Pending.after d.methods (marks raw history) := by
  induction h with
  | made h => exact Fragment.eq_commands_of_parse (congrArg Outcome.result h)
  | @settled before desk desk₁ desk' _ hothers operation r hends ih =>
    have hpending := Operation.pending_of_ends hd hends
    rw [marks_concat, hpending]
    cases operation.mark? r with
    | none =>
      -- nothing is decided anew, and nothing has changed in between
      rw [Option.toList_none, List.append_nil, ← ih]
      exact hothers
    | some mark => exact (Pending.after_concat d.methods (marks raw before) mark).symm

/-! ## The pending commands of a history -/

/-- A run of what is pending checks all of it and starts with its first command. -/
theorem runOnce_allOrNothing (d : Dispatcher ρ) (desk : Desk (Watched ρ)) :
    AllOrNothing d desk.pending desk d.runOnce d.watched.runOnce := by
  have hclear : ∀ n : Nat, (clearing (ρ := Watched ρ) n).Keeps SameCalls :=
    fun _ _ => ⟨rfl, trivial⟩
  exact allOrNothing_bind d desk.pending desk d.watched_runOnce_shadows hclear fun _ _ => rfl

/-- What is pending after a history. -/
structure PendingOf (d : Dispatcher ρ) (raw : Option Text)
    (history : List (Operation × Except Failure Unit)) (desk : Desk ρ) : Prop where
  /-- It is all commands of the fragment that has been loaded last, the one that the dispatcher has
  been made of included, if no run of what was pending has succeeded since, and nothing
  otherwise. -/
  last : desk.pending = Pending.after d.methods (marks raw history)
  /-- An operation leaves it as it is if it fails, and if it is neither a load nor a run of what is
  pending that clears it. -/
  kept : ∀ desk₁ operation r desk', SamePending desk desk₁ →
    Task.Ends SamePending (Operation.task d operation) desk₁ r desk' →
    operation.changesPending = false ∨ (∃ e, r = .error e) → desk'.pending = desk.pending
  /-- After a run that has failed, wherever it has, the next one begins anew: all the commands are
  checked, and the first of them is the first to run. -/
  retried : ∀ desk₁ e desk' desk₂ calls, SamePending desk desk₁ →
    Task.Ends SamePending (Operation.task d .runOnce) desk₁ (.error e) desk' →
    SamePending desk' desk₂ →
    AllOrNothing d desk.pending ⟨desk₂.pending, ⟨desk₂.host, calls⟩⟩ d.runOnce d.watched.runOnce
  /-- A load fails only if the sink is cancelled. -/
  loads : (∀ tell ∈ d.sink, ∀ diagnostic host e,
      (tell diagnostic host).result = .error e → e.isOrdinary = true) →
    ∀ raw desk₁ r desk', Task.Ends SamePending (Operation.task d (.load raw)) desk₁ r desk' →
      r = .ok ()

/-- **The pending commands are those of the last fragment that has been loaded until a run of them
has succeeded**, in every history of a dispatcher whose runners do not touch them. -/
theorem pending_of_history (d : Dispatcher ρ) (hd : d.LeavesPending) {raw : Option Text}
    {history : List (Operation × Except Failure Unit)} {desk : Desk ρ}
    (h : History d raw history desk) : PendingOf d raw history desk where
  last := h.pending hd
  kept := by
    intro desk₁ operation r desk' hothers hends hkept
    have hpending := Operation.pending_of_ends hd hends
    rw [Operation.mark?_eq_none hkept] at hpending
    exact hpending.trans hothers
  retried := by
    intro desk₁ e desk' desk₂ calls hothers hends hothers'
    have hpending := Operation.pending_of_ends hd hends
    rw [Operation.mark?_eq_none (.inr ⟨e, rfl⟩)] at hpending
    have hsame : desk₂.pending = desk.pending := hothers'.trans (hpending.trans hothers)
    rw [← hsame]
    exact d.runOnce_allOrNothing ⟨desk₂.pending, ⟨desk₂.host, calls⟩⟩
  loads := fun hsink _ _ _ _ hends => Operation.ok_of_load hsink hends

/-- A dispatcher with one family, whose command `b` fails. -/
def failing : Dispatcher Unit :=
  { table := [("e:run", {
      run := fun name _ =>
        if name = "b" then Task.fail (Failure.of (.raised .runtime "no")) else pure .null
      isSafe := fun _ => pure true })]
    sink := none }

theorem failing_leavesPending : failing.LeavesPending := by
  refine .single fun name args => ?_
  dsimp only
  split <;> trivial

/-- The desk of such a dispatcher with two pending commands. -/
def twoPending : Desk Unit := ⟨[⟨"e:run", "a", []⟩, ⟨"e:run", "b", []⟩], ()⟩

/-- Nothing keeps a load without a sink from ending at once. -/
theorem ends_load {others : Desk ρ → Desk ρ → Prop} (hothers : IsPreorder others)
    {d : Dispatcher ρ} (hd : d.sink = none) (raw : Option Text) (desk : Desk ρ) :
    Task.Ends others ((Operation.load raw).task d) desk (.ok ())
      ⟨Fragment.commands d.methods raw, desk.host⟩ := by
  have hparse : d.parse raw desk.host = ⟨.ok (Fragment.commands d.methods raw), desk.host,
      (Fragment.diagnostics d.methods raw).map fun diagnostic => .notice diagnostic.notice⟩ := by
    rw [parse, hd, Fragment.parse_logged]
  obtain ⟨trace, hload⟩ := load_of_ok (congrArg Outcome.result hparse)
  refine .work hothers (fun _ => true) .far ?_
  rw [Operation.task, Task.toUnit, Task.work_ofAct_bind, hload, hparse]
  exact .done (.ok ()) _

/-- One command has run when the other one fails, and both are left. -/
theorem both_left : failing.LeavesPending ∧ ∃ e,
    History failing (some "#e:run:c") [(.load (some "#e:run:a&e:run:b"), .ok ()),
      (.runOnce, .error e)] twoPending
    ∧ twoPending.pending
      = Pending.after failing.methods [.loaded (some "#e:run:c"),
          .loaded (some "#e:run:a&e:run:b")] := by
  have hrefl := Desk.SamePending.isPreorder (ρ := Unit)
  have hmade : History failing (some "#e:run:c") [] ⟨_, ()⟩ :=
    .made (Fragment.parse_logged failing.methods _ ())
  -- the load succeeds, and the run fails and leaves the desk as it is
  have hcommands : Fragment.commands failing.methods (some "#e:run:a&e:run:b")
      = twoPending.pending := rfl
  have hload := ends_load hrefl (d := failing) rfl (some "#e:run:a&e:run:b")
    ⟨Fragment.commands failing.methods (some "#e:run:c"), ()⟩
  rw [hcommands] at hload
  obtain ⟨e, hrun⟩ : ∃ e, Task.Ends SamePending (Operation.runOnce.task failing) twoPending
      (.error e) twoPending :=
    ⟨_, Task.Ends.whole hrefl (Operation.runOnce.task failing) twoPending⟩
  have hhistory := (hmade.settled (hrefl.refl _) hload).settled (hrefl.refl twoPending) hrun
  have hlast := (pending_of_history failing failing_leavesPending hhistory).last
  exact ⟨failing_leavesPending, e, hhistory, hlast⟩

end Dispatcher

end Deeplink

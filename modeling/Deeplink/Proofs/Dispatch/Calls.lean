import Deeplink.Proofs.Dispatch.Validation

/-!
# Who makes calls

Reading a fragment calls no family, whatever the sink does. Everything else that a dispatcher does
only adds to the calls.

- `Fragment.parse_keeps`: parsing changes the state only as the sink does.
- `Dispatcher.watched_parse_keeps`, `Dispatcher.watched_load_keeps`: no calls.
- `Dispatcher.watched_runFragment_keeps`, `Dispatcher.watched_runOnce_keeps`: further calls.
-/

namespace Deeplink

/-! ## Reading fragments -/

namespace Fragment

variable {σ : Type} {R : σ → σ → Prop} {sink : Option (Sink σ)}

/-- Whatever the sink is told, what it does is allowed by `R`. -/
def SinkKeeps (R : σ → σ → Prop) (sink : Option (Sink σ)) : Prop :=
  ∀ tell ∈ sink, ∀ d, (tell d).Keeps R

/-- To report does no more than the sink does. -/
theorem report_keeps (hR : IsPreorder R) (hsink : SinkKeeps R sink) (d : Diagnostic) :
    (report sink d).Keeps R := by
  cases sink with
  | none => exact .same hR fun _ => rfl
  | some tell =>
    have htell : (tell d).attempt.Keeps R := fun s => hsink tell rfl d s
    refine .bind hR htell fun r => ?_
    cases r with
    | ok u => exact .same hR fun _ => rfl
    | error e =>
      -- only a failure that is not ordinary goes on, but neither changes anything
      by_cases he : e.isOrdinary = true
      · simp only [if_pos he]
        exact .same hR fun _ => rfl
      · simp only [if_neg he]
        exact .same hR fun _ => rfl

/-- To parse a token does no more than the sink does. -/
theorem parseToken_keeps (hR : IsPreorder R) (hsink : SinkKeeps R sink) (methods : List Text)
    (t : Text) : (parseToken methods sink t).Keeps R := by
  unfold parseToken
  cases Token.ofText? t with
  | none => exact .same hR fun _ => rfl
  | some token =>
    by_cases hm : token.method ∈ methods
    · simp only [if_pos hm]
      refine .bind hR ?_ fun args => .same hR fun _ => rfl
      unfold decodeArguments
      cases Arguments.decode token.arguments with
      | ok args => exact .same hR fun _ => rfl
      | error fault =>
        exact .bind hR (report_keeps hR hsink ⟨fault⟩) fun _ => .same hR fun _ => rfl
    · simp only [if_neg hm]
      exact .same hR fun _ => rfl

/-- **Parsing does nothing but what the sink does.** -/
theorem parse_keeps (hR : IsPreorder R) (hsink : SinkKeeps R sink) (methods : List Text)
    (raw : Option Text) : (parse methods sink raw).Keeps R := by
  unfold parse
  induction tokens (raw.getD []) with
  | nil => exact .same hR fun _ => rfl
  | cons t ts ih =>
    refine .bind hR (parseToken_keeps hR hsink methods t) fun first => ?_
    exact .bind hR ih fun rest => .same hR fun _ => rfl

end Fragment

/-! ## Calls -/

namespace Watched

variable {ρ α : Type}

/-- Calls are only added. -/
def AddsCalls (w w' : Watched ρ) : Prop := w.calls <+: w'.calls

theorem AddsCalls.isPreorder : IsPreorder (AddsCalls (ρ := ρ)) where
  refl w := List.prefix_refl w.calls
  trans h h' := List.IsPrefix.trans h h'

end Watched

namespace Dispatcher

variable {ρ : Type}

open Watched (AddsCalls)

/-- On a desk, calls are only added. -/
def AddsCallsOn (desk desk' : Desk (Watched ρ)) : Prop := AddsCalls desk.host desk'.host

theorem AddsCallsOn.isPreorder : IsPreorder (AddsCallsOn (ρ := ρ)) where
  refl desk := AddsCalls.isPreorder.refl desk.host
  trans h h' := AddsCalls.isPreorder.trans h h'

/-- Reading a fragment makes no calls. -/
theorem watched_parse_keeps (d : Dispatcher ρ) (raw : Option Text) :
    (d.watched.parse raw).Keeps fun w w' => w'.calls = w.calls := by
  have hR : IsPreorder fun w w' : Watched ρ => w'.calls = w.calls :=
    { refl := fun _ => rfl, trans := fun h h' => h'.trans h }
  refine Fragment.parse_keeps hR ?_ d.watched.methods raw
  intro tell htell diagnostic w
  obtain ⟨tell', -, rfl⟩ := Option.map_eq_some_iff.mp htell
  rfl

/-- To load a fragment calls no family. -/
theorem watched_load_keeps (d : Dispatcher ρ) (raw : Option Text) :
    (d.watched.load raw).Keeps SameCalls := by
  refine .bind SameCalls.isPreorder (fun desk => d.watched_parse_keeps raw desk.host)
    fun commands => ?_
  exact fun desk => rfl

/-- Checking commands only adds calls. -/
theorem watched_validateFrom_keeps (d : Dispatcher ρ) (position : Nat) (cs : List Command) :
    (d.watched.validateFrom position cs).Keeps AddsCalls := by
  refine validateFrom_keeps AddsCalls.isPreorder (fun c w => ?_) position cs
  rw [watched_ask]
  exact List.prefix_append w.calls (d.checks [c])

/-- To run commands only adds to the calls. -/
theorem watched_run_keeps_calls (d : Dispatcher ρ) (cs : List Command) :
    (d.watched.run cs).Keeps AddsCallsOn := by
  refine .bind (.ofAct fun desk => d.watched_validateFrom_keeps 0 cs desk.host) fun _ => ?_
  refine .bind ((d.watched_runFrom_keeps 0 cs).mono fun desk desk' h => ?_) fun _ => trivial
  obtain ⟨calls, hcalls, -⟩ := h
  exact ⟨calls, hcalls.symm⟩

/-- A run of a fragment only adds calls. -/
theorem watched_runFragment_keeps (d : Dispatcher ρ) (raw : Option Text) :
    (d.watched.runFragment raw).Keeps AddsCallsOn := by
  refine .bind (.ofAct fun desk => ?_) fun commands => d.watched_run_keeps_calls commands
  have hcalls := d.watched_parse_keeps raw desk.host
  exact ⟨[], (List.append_nil _).trans hcalls.symm⟩

/-- A run of the pending commands only adds calls. -/
theorem watched_runOnce_keeps (d : Dispatcher ρ) : d.watched.runOnce.Keeps AddsCallsOn := by
  have hrefl := (AddsCallsOn.isPreorder (ρ := ρ)).refl
  refine .bind (.bind (.get hrefl) fun desk => d.watched_run_keeps_calls desk.pending) ?_
  exact fun count => .bind (.modify fun desk => hrefl desk) fun _ => trivial

end Dispatcher

end Deeplink

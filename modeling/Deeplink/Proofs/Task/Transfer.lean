import Deeplink.Proofs.Task.Ends
import Deeplink.Proofs.Task.Shadow

/-!
# Ends of shadows

A task and its shadow end in the same way. What is proved of one of them holds of the other, as far
as the view shows the state.

- `Task.Shadows.noted`: to note how a task has ended, where the view does not show it.
- `Task.Shadows.within`: a shadow within a part of the state.
- `Task.Ends.of_shadows`: the ends of a task, seen by its shadow.
- `Task.FailsOnly`: what the failures of a task have in common, whatever others do.
-/

namespace Deeplink.Task

variable {σ τ υ ω α β : Type}

/-! ## Further shadows -/

namespace Shadows

/-- Noting the end of a task, and then ending like it. -/
theorem noted {view : τ → σ} {t : Task τ α} {u : Task σ α} (h : Shadows view t u)
    {note : Except Failure α → τ → τ} (hnote : ∀ r s, view (note r s) = view s) :
    Shadows view (t.attempt.bind fun r => .act (note r) fun _ => .done r) u := by
  induction h with
  | done r => exact .hidden (hnote r) fun _ => .done r
  | act hchange _ ih => exact .act hchange ih
  | hidden hchange _ ih => exact .hidden hchange ih
  | emit x _ ih => exact .emit x ih
  | pause _ ih => exact .pause ih
  | rest _ ih => exact .rest ih
  | wait gate _ ih => exact .wait gate ih

/-- A shadow on a part of the state is one on the whole state, if the views of both go together. -/
theorem within {view : τ → σ} {outer : υ → ω} {part : υ → τ} {put : τ → υ → υ} {part' : ω → σ}
    {put' : σ → ω → ω} (hlaws : IsPart part' put') (hpart : ∀ s, part' (outer s) = view (part s))
    (hput : ∀ a s, outer (put a s) = put' (view a) (outer s)) {t : Task τ α} {u : Task σ α}
    (h : Shadows view t u) : Shadows outer (t.focus part put) (u.focus part' put') := by
  induction h with
  | done r => exact .done r
  | @act change change' next next' hchange hnext ih =>
    refine .act (fun s => ?_) fun s => ?_
    · rw [hput, hchange, hpart]
    · have hrest := ih (part s)
      rw [← hpart] at hrest
      exact hrest
  | @hidden change next u hchange hnext ih =>
    refine .hidden (fun s => ?_) fun s => ih (part s)
    rw [hput, hchange, ← hpart, hlaws.put_part]
  | emit x _ ih => exact .emit x ih
  | pause _ ih => exact .pause ih
  | rest _ ih => exact .rest ih
  | wait gate _ ih => exact .wait gate ih

end Shadows

/-! ## Ends -/

namespace Ends

variable {others : τ → τ → Prop} {inner : σ → σ → Prop} {view : τ → σ} {t : Task τ α} {u : Task σ α}

/-- **The ends of a task are those that its shadow sees**, if the shadow sees what others do. -/
theorem of_shadows (h : Shadows view t u) (hothers : ∀ s s', others s s' → inner (view s) (view s'))
    {s s' : τ} {r : Except Failure α} (hends : Ends others t s r s') :
    Ends inner u (view s) r (view s') := by
  induction h generalizing s with
  | done r =>
    cases hends with
    | done => exact .done r _
  | @act change change' next next' hchange hnext ih =>
    cases hends with
    | act hends =>
      have hrest := ih s hends
      rw [hchange s] at hrest
      exact .act hrest
  | @hidden change next u hchange hnext ih =>
    cases hends with
    | act hends =>
      have hrest := ih s hends
      rwa [hchange s] at hrest
  | emit x _ ih =>
    cases hends with
    | emit hends => exact .emit (ih hends)
  | pause _ ih =>
    cases hends with
    | pause ho hends => exact .pause (hothers _ _ ho) (ih hends)
  | rest _ ih =>
    cases hends with
    | rest ho hends => exact .rest (hothers _ _ ho) (ih hends)
  | wait gate _ ih =>
    cases hends with
    | wait ho hends => exact .wait (hothers _ _ ho) (ih hends)

end Ends

/-! ## Failures -/

/-- Whatever others do, a task fails only with what `P` says. -/
def FailsOnly (P : Failure → Prop) : Task σ α → Prop
  | .done (.ok _) => True
  | .done (.error e) => P e
  | .act _ next => ∀ s, (next s).FailsOnly P
  | .emit _ next => next.FailsOnly P
  | .pause next => next.FailsOnly P
  | .rest next => next.FailsOnly P
  | .wait _ next => next.FailsOnly P

theorem FailsOnly.focus {P : Failure → Prop} {part : τ → σ} {put : σ → τ → τ} {t : Task σ α}
    (ht : t.FailsOnly P) : (t.focus part put).FailsOnly P := by
  induction t with
  | done r =>
    cases r with
    | ok a => trivial
    | error e => exact ht
  | act change next ih => exact fun s => ih (part s) (ht (part s))
  | emit x next ih => exact ih ht
  | pause next ih => exact ih ht
  | rest next ih => exact ih ht
  | wait gate next ih => exact ih ht

theorem Ends.failsOnly {others : σ → σ → Prop} {P : Failure → Prop} {t : Task σ α}
    (ht : t.FailsOnly P) {s s' : σ} {e : Failure} (h : Ends others t s (.error e) s') : P e := by
  generalize hr : Except.error e = r at h
  induction h with
  | done r s =>
    subst hr
    exact ht
  | @act change next s s' r h ih => exact ih (ht s) hr
  | emit h ih => exact ih ht hr
  | pause ho h ih => exact ih ht hr
  | rest ho h ih => exact ih ht hr
  | wait ho h ih => exact ih ht hr

end Deeplink.Task

import Deeplink.Proofs.Dispatch.Runners
import Deeplink.Proofs.Fragment.Commands
import Deeplink.Proofs.Task.Shadow

/-!
# Shadows of dispatchers

A dispatcher works through its families and its sink. If these are shadowed, then so is everything
that the dispatcher does.

- `Family.Shadows`, `Dispatcher.Shadows`: one family, and one dispatcher, does to a view of the host
  what another one does to the host.
- `Dispatcher.Shadows.load`, `Dispatcher.Shadows.runFragment`, `Dispatcher.Shadows.runOnce`: then
  the work of the first dispatcher is shadowed by that of the second one.
-/

namespace Deeplink

variable {ρ τ : Type} {view : τ → ρ}

/-- A desk, with a view of its host. -/
def Desk.seen (view : τ → ρ) (desk : Desk τ) : Desk ρ := ⟨desk.pending, view desk.host⟩

/-- The second family does to the view of the host what the first one does to the host. -/
structure Family.Shadows (view : τ → ρ) (f : Family τ) (g : Family ρ) : Prop where
  run : ∀ name args, Task.Shadows (Desk.seen view) (f.run name args) (g.run name args)
  isSafe : ∀ name, Act.Shadows view (f.isSafe name) (g.isSafe name)

/-- Each family is shadowed by that of the same method in the same place. -/
inductive Table.Shadows (view : τ → ρ) : Table τ → Table ρ → Prop where
  | nil : Shadows view [] []
  | cons {method : Text} {f : Family τ} {g : Family ρ} {t : Table τ} {u : Table ρ}
      (hf : f.Shadows view g) (ht : Shadows view t u) :
      Shadows view ((method, f) :: t) ((method, g) :: u)

/-- What is told the first sink is told the second one, if there are any. -/
inductive Fragment.SinkShadows (view : τ → ρ) : Option (Sink τ) → Option (Sink ρ) → Prop where
  | none : SinkShadows view none none
  | some {tell : Sink τ} {tell' : Sink ρ} (h : ∀ x, Act.Shadows view (tell x) (tell' x)) :
      SinkShadows view (some tell) (some tell')

/-- The table of a dispatcher corresponds to that of another one, and so does its sink. -/
structure Dispatcher.Shadows (view : τ → ρ) (d : Dispatcher τ) (e : Dispatcher ρ) : Prop where
  table : d.table.Shadows view e.table
  sink : Fragment.SinkShadows view d.sink e.sink

/-! ## Tables -/

namespace Table.Shadows

variable {t : Table τ} {u : Table ρ}

/-- Both tables have the same methods. -/
theorem methods (h : t.Shadows view u) : t.methods = u.methods := by
  induction h with
  | nil => rfl
  | cons hf ht ih => exact congrArg (List.cons _) ih

/-- Looking up a method gives two families of this kind, or none at all. -/
theorem lookup (h : t.Shadows view u) (method : Text) :
    (t.lookup method = none ∧ u.lookup method = none)
      ∨ ∃ f g, t.lookup method = some f ∧ u.lookup method = some g ∧ f.Shadows view g := by
  induction h with
  | nil => exact .inl ⟨rfl, rfl⟩
  | @cons m f g t u hf ht ih =>
    rw [List.lookup_cons, List.lookup_cons]
    by_cases hm : method = m
    · subst hm
      simp only [BEq.rfl]
      exact .inr ⟨f, g, rfl, rfl, hf⟩
    · rw [beq_false_of_ne hm]
      exact ih

/-- Two tables still correspond when one method is set in both of them. -/
theorem set (h : t.Shadows view u) (method : Text) {f : Family τ} {g : Family ρ}
    (hfg : f.Shadows view g) : (t.set method f).Shadows view (u.set method g) := by
  induction h with
  | nil => exact .cons hfg .nil
  | @cons m f' g' t u hf ht ih =>
    unfold Table.set Keyed.set
    by_cases hm : m = method
    · rw [if_pos hm, if_pos hm]
      exact .cons hfg ht
    · rw [if_neg hm, if_neg hm]
      exact .cons hf ih

end Table.Shadows

/-! ## Reading fragments -/

namespace Fragment.SinkShadows

variable {sink : Option (Sink τ)} {sink' : Option (Sink ρ)}

/-- What the sinks are told is the same, and so is what becomes of it. -/
theorem report (h : SinkShadows view sink sink') (x : Diagnostic) :
    Act.Shadows view (report sink x) (Fragment.report sink' x) := by
  cases h with
  | none => exact .emit _
  | some h =>
    refine .bind (h x).attempt fun r => ?_
    cases r with
    | ok u => exact .pure ()
    | error e =>
      by_cases he : e.isOrdinary = true
      · simp only [if_pos he]
        exact .emit _
      · simp only [if_neg he]
        exact .fail e

theorem reportAll (h : SinkShadows view sink sink') (xs : List Diagnostic) :
    Act.Shadows view (reportAll sink xs) (Fragment.reportAll sink' xs) := by
  induction xs with
  | nil => exact .pure ()
  | cons x xs ih => exact .bind (h.report x) fun _ => ih

/-- Parsing reaches the host through the sink only. -/
theorem parse (h : SinkShadows view sink sink') (methods : List Text) (raw : Option Text) :
    Act.Shadows view (parse methods sink raw) (Fragment.parse methods sink' raw) := by
  rw [parse_eq, parse_eq]
  exact .bind (h.reportAll _) fun _ => .pure _

end Fragment.SinkShadows

/-! ## Dispatchers -/

namespace Dispatcher

/-- What the host does is seen in the host. -/
theorem onHost_shadows {α : Type} {x : Act τ α} {y : Act ρ α} (h : Act.Shadows view x y) :
    Act.Shadows (Desk.seen view) (Desk.onHost x) (Desk.onHost y) := by
  intro desk
  obtain ⟨hresult, hstate, htrace⟩ := h desk.host
  exact ⟨hresult, congrArg (Desk.mk desk.pending) hstate, htrace⟩

theorem refuse_shadows (c : Command) (position : Nat) (refusal : Refusal) :
    Act.Shadows view (refuse c position refusal) (refuse c position refusal) :=
  .bind (.emit _) fun _ => .fail _

/-- What becomes of the end of a runner does not depend on the host. -/
theorem settle_shadows (c : Command) (position : Nat) (r : Except Failure Json) :
    Task.Shadows (Desk.seen view) (settle c position r) (settle c position r) := by
  cases r with
  | ok v => exact .emit _ (.done _)
  | error e =>
    cases h : e.escaping? with
    | none =>
      simp only [settle, h]
      exact .emit _ (.done _)
    | some escaping =>
      simp only [settle, h]
      exact .done _

namespace Shadows

variable {d : Dispatcher τ} {e : Dispatcher ρ}

/-- Both dispatchers know the same methods. -/
theorem methods (h : Shadows view d e) : d.methods = e.methods := h.table.methods

theorem parse (h : Shadows view d e) (raw : Option Text) :
    Act.Shadows view (d.parse raw) (e.parse raw) := by
  unfold Dispatcher.parse
  rw [h.methods]
  exact h.sink.parse e.methods raw

/-- What is pending is no part of the host, so it is replaced alike. -/
theorem load (h : Shadows view d e) (raw : Option Text) :
    Act.Shadows (Desk.seen view) (d.load raw) (e.load raw) := by
  refine .bind (onHost_shadows (h.parse raw)) fun commands => .bind ?_ fun _ =>
    .bind (.emit _) fun _ => .pure commands
  exact fun desk => ⟨rfl, rfl, rfl⟩

/-- A check asks its family on the host, and is told the same. -/
theorem check (h : Shadows view d e) (c : Command) (position : Nat) :
    Act.Shadows view (d.check c position) (e.check c position) := by
  unfold Dispatcher.check
  rcases h.table.lookup c.method with ⟨hd, he⟩ | ⟨f, g, hd, he, hfg⟩
  · rw [hd, he]
    exact refuse_shadows c position (.noFamily c.name)
  · rw [hd, he]
    refine .bind (hfg.isSafe c.name) fun isSafe => ?_
    cases isSafe with
    | true => exact .pure ()
    | false => exact refuse_shadows c position (.notSafe c.name)

/-- The first command that is refused, or that cannot be checked, is the same for both. -/
theorem validateFrom (h : Shadows view d e) (position : Nat) (cs : List Command) :
    Act.Shadows view (d.validateFrom position cs) (e.validateFrom position cs) := by
  induction cs generalizing position with
  | nil => exact .pure ()
  | cons c cs ih => exact .bind (h.check c position) fun _ => ih (position + 1)

/-- One command: both dispatchers have a family for it, or neither has one. -/
theorem runAt (h : Shadows view d e) (c : Command) (position : Nat) :
    Task.Shadows (Desk.seen view) (d.runAt c position) (e.runAt c position) := by
  unfold Dispatcher.runAt
  rcases h.table.lookup c.method with ⟨hd, he⟩ | ⟨f, g, hd, he, hfg⟩
  · rw [hd, he]
    exact .done _
  · rw [hd, he]
    exact .bind (hfg.run c.name c.args).attempt fun r => settle_shadows c position r

/-- Commands are run one after the other, and the ends are the same all the way. -/
theorem runFrom (h : Shadows view d e) (position : Nat) (cs : List Command) :
    Task.Shadows (Desk.seen view) (d.runFrom position cs) (e.runFrom position cs) := by
  induction cs generalizing position with
  | nil => exact .done _
  | cons c cs ih => exact .bind (h.runAt c position) fun _ => ih (position + 1)

/-- **A run is shadowed by the same run**: it does the same to the pending commands, to the view of
the host and to the outside, and it ends in the same way. -/
theorem run (h : Shadows view d e) (cs : List Command) :
    Task.Shadows (Desk.seen view) (d.run cs) (e.run cs) :=
  .bind (.ofAct (onHost_shadows (h.validateFrom 0 cs))) fun _ =>
    .bind (h.runFrom 0 cs) fun _ => .done _

theorem runFragment (h : Shadows view d e) (raw : Option Text) :
    Task.Shadows (Desk.seen view) (d.runFragment raw) (e.runFragment raw) :=
  .bind (.ofAct (onHost_shadows (h.parse raw))) fun commands => h.run commands

theorem runPending (h : Shadows view d e) :
    Task.Shadows (Desk.seen view) d.runPending e.runPending :=
  .get_bind fun desk => h.run desk.pending

/-- What is pending is cleared by the same ends. -/
theorem runOnce (h : Shadows view d e) :
    Task.Shadows (Desk.seen view) d.runOnce e.runOnce :=
  .bind h.runPending fun _ => .act (fun _ => rfl) fun _ => .done _

end Shadows

end Dispatcher

end Deeplink

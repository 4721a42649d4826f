import Deeplink.Proofs.Task.Guarantee

/-!
# What holds at suspensions

One change may break what the next one mends. Nobody sees it if the task is not suspended in
between.

- `Task.Upholds`: whenever a task is suspended, and when it has ended, the state satisfies a
  predicate, as long as others keep it.
- `Task.Upholds.of_keeps`, `Task.Upholds.bind`: how this is known of a task from its changes and
  from its parts.
- `Task.Upholds.work`, `Task.Upholds.resume`: then it holds of every turn of the task, and of what
  is left of it.
-/

namespace Deeplink.Task

variable {σ α β : Type} {I : σ → Prop}

/-- A task that goes on from the state leaves one that satisfies `I` when it is suspended or ends,
if the others leave such a state whenever it is suspended. -/
def Upholds (I : σ → Prop) : Task σ α → σ → Prop
  | .done _, s => I s
  | .act change next, s => (next s).Upholds I (change s)
  | .emit _ next, s => next.Upholds I s
  | .pause next, s => I s ∧ ∀ s', I s' → next.Upholds I s'
  | .rest next, s => I s ∧ ∀ s', I s' → next.Upholds I s'
  | .wait _ next, s => I s ∧ ∀ s', I s' → next.Upholds I s'

namespace Upholds

/-- If no change breaks it, it holds all the time. -/
theorem of_keeps {R : σ → σ → Prop} (hR : ∀ {s s'}, R s s' → I s → I s') {t : Task σ α}
    (ht : t.Keeps R) {s : σ} (hs : I s) : t.Upholds I s := by
  induction t generalizing s with
  | done r => exact hs
  | act change next ih => exact ih s (ht s).2 (hR (ht s).1 hs)
  | emit x next ih => exact ih ht hs
  | pause next ih => exact ⟨hs, fun _ hs' => ih ht hs'⟩
  | rest next ih => exact ⟨hs, fun _ hs' => ih ht hs'⟩
  | wait gate next ih => exact ⟨hs, fun _ hs' => ih ht hs'⟩

/-- An invariant is upheld by one task after the other, if the second one does so from wherever the
first one ends. -/
theorem bind {t : Task σ α} {f : α → Task σ β} {s : σ} (ht : t.Upholds I s)
    (hf : ∀ a s', I s' → (f a).Upholds I s') : (t.bind f).Upholds I s := by
  induction t generalizing s with
  | done r =>
    cases r with
    | ok a => exact hf a s ht
    | error e => exact ht
  | act change next ih => exact ih s ht
  | emit x next ih => exact ih ht
  | pause next ih => exact ⟨ht.1, fun s' hs' => ih (ht.2 s' hs')⟩
  | rest next ih => exact ⟨ht.1, fun s' hs' => ih (ht.2 s' hs')⟩
  | wait gate next ih => exact ⟨ht.1, fun s' hs' => ih (ht.2 s' hs')⟩

theorem attempt {t : Task σ α} {s : σ} (ht : t.Upholds I s) : t.attempt.Upholds I s := by
  induction t generalizing s with
  | done r => exact ht
  | act change next ih => exact ih s ht
  | emit x next ih => exact ih ht
  | pause next ih => exact ⟨ht.1, fun s' hs' => ih (ht.2 s' hs')⟩
  | rest next ih => exact ⟨ht.1, fun s' hs' => ih (ht.2 s' hs')⟩
  | wait gate next ih => exact ⟨ht.1, fun s' hs' => ih (ht.2 s' hs')⟩

/-- **Each turn of a task leaves a state of the kind**, and what is left of the task can go on from
any such state. -/
theorem work (isOpen : Text → Bool) (reach : Reach) {t : Task σ α} {s : σ} (ht : t.Upholds I s) :
    I (t.work isOpen reach s).state
      ∧ ∀ s', I s' → (t.work isOpen reach s).task.Upholds I s' := by
  induction t generalizing reach s with
  | done r => exact ⟨ht, fun _ hs' => hs'⟩
  | act change next ih => exact ih s reach ht
  | emit x next ih => exact ih reach ht
  | pause next ih =>
    simp only [Task.work]
    split
    · exact ⟨ht.1, fun s' hs' => ⟨hs', ht.2⟩⟩
    · exact ih reach (ht.2 s ht.1)
  | rest next ih =>
    simp only [Task.work]
    split
    · exact ih reach (ht.2 s ht.1)
    · exact ⟨ht.1, fun s' hs' => ⟨hs', ht.2⟩⟩
  | wait gate next ih =>
    simp only [Task.work]
    split
    · exact ih _ (ht.2 s ht.1)
    · exact ⟨ht.1, fun s' hs' => ⟨hs', ht.2⟩⟩

/-- **One turn**: the invariant holds at its end, and what is left upholds it. -/
theorem resume (isOpen : Text → Bool) (reach : Reach) {t : Task σ α}
    (ht : ∀ s, I s → t.Upholds I s) {s : σ} (hs : I s) :
    I (t.resume isOpen reach s).state
      ∧ ∀ s', I s' → (t.resume isOpen reach s).task.Upholds I s' := by
  cases t with
  | done r => exact ⟨hs, fun _ hs' => hs'⟩
  | act change next => exact work isOpen reach (ht s hs)
  | emit x next => exact work isOpen reach (t := .emit x next) (ht s hs)
  | pause next => exact work isOpen reach ((ht s hs).2 s hs)
  | rest next => exact work isOpen reach ((ht s hs).2 s hs)
  | wait gate next =>
    simp only [Task.resume]
    split
    · exact work isOpen reach ((ht s hs).2 s hs)
    · exact ⟨hs, ht⟩

end Upholds

end Deeplink.Task

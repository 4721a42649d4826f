import Deeplink.Proofs.Task.Ends

/-!
# The moments of a task

What holds at the end of a task may not hold on the way. A task that is never resumed has no end at
all, but it has moments.

- `Task.Passes`: the states that a task may pass, those while it is suspended included.
- `Task.Passes.of_bind`: a moment of two tasks in a row is one of the first task, or one of the
  second task after the first one has ended.
- `Task.Passes.keeps`: what every change of a task and of the others keeps holds at every moment.
- `Task.Passes.work`: the state in which a task is suspended is one of its moments.
-/

namespace Deeplink.Task

variable {σ τ α β : Type} {others : σ → σ → Prop}

/-- A task that begins in the first state may pass the second one, if others change the state only
as `others` says, and only while the task is suspended. -/
inductive Passes (others : σ → σ → Prop) : Task σ α → σ → σ → Prop where
  | here (t : Task σ α) (s : σ) : Passes others t s s
  | act {change : σ → σ} {next : σ → Task σ α} {s s' : σ}
      (h : Passes others (next s) (change s) s') : Passes others (.act change next) s s'
  | emit {x : Signal} {next : Task σ α} {s s' : σ} (h : Passes others next s s') :
      Passes others (.emit x next) s s'
  | pause {next : Task σ α} {s s₁ s' : σ} (hothers : others s s₁) (h : Passes others next s₁ s') :
      Passes others (.pause next) s s'
  | rest {next : Task σ α} {s s₁ s' : σ} (hothers : others s s₁) (h : Passes others next s₁ s') :
      Passes others (.rest next) s s'
  | wait {gate : Text} {next : Task σ α} {s s₁ s' : σ} (hothers : others s s₁)
      (h : Passes others next s₁ s') : Passes others (.wait gate next) s s'

namespace Passes

/-! ## Tasks that are put together -/

/-- Who is done passes no more moments. -/
theorem of_done {r : Except Failure α} {s s' : σ} (h : Passes others (.done r) s s') : s' = s := by
  cases h with
  | here => rfl

theorem of_act {change : σ → σ} {next : σ → Task σ α} {s s' : σ}
    (h : Passes others (.act change next) s s') :
    s' = s ∨ Passes others (next s) (change s) s' := by
  cases h with
  | here => exact .inl rfl
  | act h => exact .inr h

/-- A moment of one task after the other belongs to the first, or to the second after an end of the
first. -/
theorem of_bind {t : Task σ α} {f : α → Task σ β} {s s' : σ}
    (h : Passes others (t.bind f) s s') :
    Passes others t s s' ∨ ∃ a s₁, Ends others t s (.ok a) s₁ ∧ Passes others (f a) s₁ s' := by
  induction t generalizing s with
  | done r =>
    cases r with
    | ok a => exact .inr ⟨a, s, .done _ s, h⟩
    | error e => exact .inl (h.of_done ▸ .here _ _)
  | act change next ih =>
    cases h with
    | here => exact .inl (.here _ _)
    | act h =>
      rcases ih s h with ht | ⟨a, s₁, ht, hf⟩
      · exact .inl (.act ht)
      · exact .inr ⟨a, s₁, .act ht, hf⟩
  | emit x next ih =>
    cases h with
    | here => exact .inl (.here _ _)
    | emit h =>
      rcases ih h with ht | ⟨a, s₁, ht, hf⟩
      · exact .inl (.emit ht)
      · exact .inr ⟨a, s₁, .emit ht, hf⟩
  | pause next ih =>
    cases h with
    | here => exact .inl (.here _ _)
    | pause ho h =>
      rcases ih h with ht | ⟨a, s₁, ht, hf⟩
      · exact .inl (.pause ho ht)
      · exact .inr ⟨a, s₁, .pause ho ht, hf⟩
  | rest next ih =>
    cases h with
    | here => exact .inl (.here _ _)
    | rest ho h =>
      rcases ih h with ht | ⟨a, s₁, ht, hf⟩
      · exact .inl (.rest ho ht)
      · exact .inr ⟨a, s₁, .rest ho ht, hf⟩
  | wait gate next ih =>
    cases h with
    | here => exact .inl (.here _ _)
    | wait ho h =>
      rcases ih h with ht | ⟨a, s₁, ht, hf⟩
      · exact .inl (.wait ho ht)
      · exact .inr ⟨a, s₁, .wait ho ht, hf⟩

/-- Catching failures does not change the moments of a task. -/
theorem of_attempt {t : Task σ α} {s s' : σ} (h : Passes others t.attempt s s') :
    Passes others t s s' := by
  induction t generalizing s with
  | done r => exact h.of_done ▸ .here _ _
  | act change next ih =>
    cases h with
    | here => exact .here _ _
    | act h => exact .act (ih s h)
  | emit x next ih =>
    cases h with
    | here => exact .here _ _
    | emit h => exact .emit (ih h)
  | pause next ih =>
    cases h with
    | here => exact .here _ _
    | pause ho h => exact .pause ho (ih h)
  | rest next ih =>
    cases h with
    | here => exact .here _ _
    | rest ho h => exact .rest ho (ih h)
  | wait gate next ih =>
    cases h with
    | here => exact .here _ _
    | wait ho h => exact .wait ho (ih h)

theorem of_modify_bind {f : σ → σ} {g : Unit → Task σ α} {s s' : σ}
    (h : Passes others ((modify f).bind g) s s') : s' = s ∨ Passes others (g ()) (f s) s' := by
  cases h with
  | here => exact .inl rfl
  | act h => exact .inr h

/-- An act has two moments: before it and behind it. -/
theorem of_ofAct {x : Act σ α} {s s' : σ} (h : Passes others (ofAct x) s s') :
    s' = s ∨ s' = (x s).state := by
  rcases h.of_act with rfl | h
  · exact .inl rfl
  · refine .inr ?_
    revert h
    induction (x s).trace with
    | nil => exact fun h => h.of_done
    | cons signal xs ih =>
      intro h
      cases h with
      | here => rfl
      | emit h => exact ih h

/-! ## What is kept -/

/-- **What every change keeps is kept at every moment.** -/
theorem keeps {R : σ → σ → Prop} (hR : IsPreorder R) (hothers : ∀ {s s'}, others s s' → R s s')
    {t : Task σ α} (ht : t.Keeps R) {s s' : σ} (h : Passes others t s s') : R s s' := by
  induction h with
  | here t s => exact hR.refl s
  | @act change next s s' h ih => exact hR.trans (ht s).1 (ih (ht s).2)
  | emit h ih => exact ih ht
  | pause ho h ih => exact hR.trans (hothers ho) (ih ht)
  | rest ho h ih => exact hR.trans (hothers ho) (ih ht)
  | wait ho h ih => exact hR.trans (hothers ho) (ih ht)

/-! ## Taking a task some way -/

/-- A task that has been taken some way is at one of its moments, and goes on from there. -/
theorem work (hothers : IsPreorder others) (isOpen : Text → Bool) (reach : Reach) {t : Task σ α}
    {s s' : σ} (h : Passes others (t.work isOpen reach s).task (t.work isOpen reach s).state s') :
    Passes others t s s' := by
  induction t generalizing reach s with
  | done x => exact h
  | act change next ih => exact .act (ih s reach h)
  | emit x next ih => exact .emit (ih reach h)
  | pause next ih =>
    simp only [Task.work] at h
    split at h
    · exact h
    · exact .pause (hothers.refl s) (ih reach h)
  | rest next ih =>
    simp only [Task.work] at h
    split at h
    · exact .rest (hothers.refl s) (ih reach h)
    · exact h
  | wait gate next ih =>
    simp only [Task.work] at h
    split at h
    · exact .wait (hothers.refl s) (ih _ h)
    · exact h

/-- Moments behind a turn are moments of the task. -/
theorem resume (hothers : IsPreorder others) (isOpen : Text → Bool) (reach : Reach)
    {u : Task σ α} {s s' : σ}
    (h : Passes others (u.resume isOpen reach s).task (u.resume isOpen reach s).state s') :
    Passes others u s s' := by
  cases u with
  | done x => exact h
  | act change next => exact work hothers isOpen reach h
  | emit x next => exact work hothers isOpen reach h
  | pause next => exact .pause (hothers.refl s) (work hothers isOpen reach h)
  | rest next => exact .rest (hothers.refl s) (work hothers isOpen reach h)
  | wait gate next =>
    simp only [Task.resume] at h
    split at h
    · exact .wait (hothers.refl s) (work hothers isOpen reach h)
    · exact h

end Passes

end Deeplink.Task

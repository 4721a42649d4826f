import Deeplink.Proofs.Task.Ends

/-!
# What tasks show

An end of a task says in which state it leaves things. Here it says as well which signals have been
shown on the way, in order.

- `Task.Shows`: a task that begins in one state may end with a result in another one, and show these
  signals until then.
- `Task.Shows.ends`, `Task.Ends.shows`: it has these ends and no others.
- `Task.Shows.bind_iff`, `Task.Shows.attempt_bind_iff`, `Task.Shows.ofAct_iff`: what a task shows
  that is put together is what its parts show, one behind the other.
-/

namespace Deeplink.Task

variable {σ α β : Type} {others : σ → σ → Prop}

/-- A task that begins in the first state may end with the result in the second one and show the
signals until then, if others change the state only as `others` says, and only while the task is
suspended. What the others show is left out. -/
def Shows (others : σ → σ → Prop) :
    Task σ α → σ → Except Failure α → σ → List Signal → Prop
  | .done x, s, r, s', xs => r = x ∧ s' = s ∧ xs = []
  | .act change next, s, r, s', xs => (next s).Shows others (change s) r s' xs
  | .emit x next, s, r, s', xs => ∃ ys, xs = x :: ys ∧ next.Shows others s r s' ys
  | .pause next, s, r, s', xs => ∃ s₁, others s s₁ ∧ next.Shows others s₁ r s' xs
  | .rest next, s, r, s', xs => ∃ s₁, others s s₁ ∧ next.Shows others s₁ r s' xs
  | .wait _ next, s, r, s', xs => ∃ s₁, others s s₁ ∧ next.Shows others s₁ r s' xs

theorem Shows.ends {t : Task σ α} {s s' : σ} {r : Except Failure α} {xs : List Signal}
    (h : Shows others t s r s' xs) : Ends others t s r s' := by
  induction t generalizing s xs with
  | done x =>
    obtain ⟨rfl, rfl, rfl⟩ := h
    exact .done _ _
  | act change next ih => exact .act (ih s h)
  | emit x next ih =>
    obtain ⟨ys, -, h⟩ := h
    exact .emit (ih h)
  | pause next ih =>
    obtain ⟨s₁, ho, h⟩ := h
    exact .pause ho (ih h)
  | rest next ih =>
    obtain ⟨s₁, ho, h⟩ := h
    exact .rest ho (ih h)
  | wait gate next ih =>
    obtain ⟨s₁, ho, h⟩ := h
    exact .wait ho (ih h)

/-- However a task ends, it has shown something by then. -/
theorem Ends.shows {t : Task σ α} {s s' : σ} {r : Except Failure α} (h : Ends others t s r s') :
    ∃ xs, Shows others t s r s' xs := by
  induction h with
  | done r s => exact ⟨[], rfl, rfl, rfl⟩
  | act _ ih => exact ih
  | @emit x next s s' r _ ih =>
    obtain ⟨xs, h⟩ := ih
    exact ⟨x :: xs, xs, rfl, h⟩
  | pause ho _ ih =>
    obtain ⟨xs, h⟩ := ih
    exact ⟨xs, _, ho, h⟩
  | rest ho _ ih =>
    obtain ⟨xs, h⟩ := ih
    exact ⟨xs, _, ho, h⟩
  | wait ho _ ih =>
    obtain ⟨xs, h⟩ := ih
    exact ⟨xs, _, ho, h⟩

namespace Shows

section Parts

variable {t : Task σ α} {f : α → Task σ β} {s s' : σ} {r : Except Failure β} {xs : List Signal}

/-- The two ways in which two tasks in a row can end: `shows` says what the first one can do. -/
private def InRow (others : σ → σ → Prop) (shows : Except Failure α → σ → List Signal → Prop)
    (f : α → Task σ β) (r : Except Failure β) (s' : σ) (xs : List Signal) : Prop :=
  (∃ a s₁ ys zs, shows (.ok a) s₁ ys ∧ Shows others (f a) s₁ r s' zs ∧ xs = ys ++ zs)
    ∨ ∃ e, r = .error e ∧ shows (.error e) s' xs

/-- Others may do something before. -/
private theorem InRow.resumed {shows : σ → Except Failure α → σ → List Signal → Prop} :
    (∃ s₁, others s s₁ ∧ InRow others (shows s₁) f r s' xs)
      ↔ InRow others (fun r s' xs => ∃ s₁, others s s₁ ∧ shows s₁ r s' xs) f r s' xs := by
  constructor
  · rintro ⟨s₁, ho, ⟨a, s₂, ys, zs, ht, hf, rfl⟩ | ⟨e, rfl, ht⟩⟩
    · exact .inl ⟨a, s₂, ys, zs, ⟨s₁, ho, ht⟩, hf, rfl⟩
    · exact .inr ⟨e, rfl, s₁, ho, ht⟩
  · rintro (⟨a, s₂, ys, zs, ⟨s₁, ho, ht⟩, hf, rfl⟩ | ⟨e, rfl, s₁, ho, ht⟩)
    · exact ⟨s₁, ho, .inl ⟨a, s₂, ys, zs, ht, hf, rfl⟩⟩
    · exact ⟨s₁, ho, .inr ⟨e, rfl, ht⟩⟩

/-- Two tasks in a row: what the first one shows, and then what the second one does, unless the
first one fails. -/
theorem bind_iff : Shows others (t.bind f) s r s' xs
    ↔ (∃ a s₁ ys zs, Shows others t s (.ok a) s₁ ys ∧ Shows others (f a) s₁ r s' zs
        ∧ xs = ys ++ zs)
      ∨ ∃ e, r = .error e ∧ Shows others t s (.error e) s' xs := by
  show _ ↔ InRow others (Shows others t s) f r s' xs
  induction t generalizing s xs with
  | done x =>
    cases x with
    | ok a =>
      constructor
      · intro h
        exact .inl ⟨a, s, [], xs, ⟨rfl, rfl, rfl⟩, h, rfl⟩
      · rintro (⟨_, _, _, zs, ⟨⟨⟩, rfl, rfl⟩, hf, rfl⟩ | ⟨e, -, ⟨⟩, -⟩)
        exact hf
    | error e =>
      constructor
      · rintro ⟨rfl, rfl, rfl⟩
        exact .inr ⟨e, rfl, rfl, rfl, rfl⟩
      · rintro (⟨_, _, _, _, ⟨⟨⟩, -⟩, -⟩ | ⟨_, rfl, ⟨⟩, rfl, rfl⟩)
        exact ⟨rfl, rfl, rfl⟩
  | act change next ih => exact ih s
  | emit x next ih =>
    constructor
    · rintro ⟨ys, rfl, h⟩
      rcases ih.mp h with ⟨a, s₁, ys, zs, ht, hf, rfl⟩ | ⟨e, rfl, ht⟩
      · exact .inl ⟨a, s₁, x :: ys, zs, ⟨ys, rfl, ht⟩, hf, rfl⟩
      · exact .inr ⟨e, rfl, ys, rfl, ht⟩
    · rintro (⟨a, s₁, _, zs, ⟨ys, rfl, ht⟩, hf, rfl⟩ | ⟨e, rfl, ys, rfl, ht⟩)
      · exact ⟨ys ++ zs, rfl, ih.mpr (.inl ⟨a, s₁, ys, zs, ht, hf, rfl⟩)⟩
      · exact ⟨ys, rfl, ih.mpr (.inr ⟨e, rfl, ht⟩)⟩
  | pause next ih => exact (exists_congr fun _ => and_congr_right fun _ => ih).trans InRow.resumed
  | rest next ih => exact (exists_congr fun _ => and_congr_right fun _ => ih).trans InRow.resumed
  | wait gate next ih =>
    exact (exists_congr fun _ => and_congr_right fun _ => ih).trans InRow.resumed

/-- Catching failures shows nothing. -/
theorem attempt_iff {r : Except Failure (Except Failure α)} :
    Shows others t.attempt s r s' xs ↔ ∃ x, r = .ok x ∧ Shows others t s x s' xs := by
  have hresumed {before : σ → Prop} {shows : σ → Except Failure α → Prop} :
      (∃ s₁, before s₁ ∧ ∃ x, r = .ok x ∧ shows s₁ x)
        ↔ ∃ x, r = .ok x ∧ ∃ s₁, before s₁ ∧ shows s₁ x := by
    constructor
    · rintro ⟨s₁, ho, x, rfl, h⟩
      exact ⟨x, rfl, s₁, ho, h⟩
    · rintro ⟨x, rfl, s₁, ho, h⟩
      exact ⟨s₁, ho, x, rfl, h⟩
  induction t generalizing s xs with
  | done x =>
    constructor
    · rintro ⟨rfl, rfl, rfl⟩
      exact ⟨x, rfl, rfl, rfl, rfl⟩
    · rintro ⟨_, rfl, rfl, rfl, rfl⟩
      exact ⟨rfl, rfl, rfl⟩
  | act change next ih => exact ih s
  | emit y next ih =>
    constructor
    · rintro ⟨ys, rfl, h⟩
      obtain ⟨x, rfl, ht⟩ := ih.mp h
      exact ⟨x, rfl, ys, rfl, ht⟩
    · rintro ⟨x, rfl, ys, rfl, h⟩
      exact ⟨ys, rfl, ih.mpr ⟨x, rfl, h⟩⟩
  | pause next ih => exact (exists_congr fun _ => and_congr_right fun _ => ih).trans hresumed
  | rest next ih => exact (exists_congr fun _ => and_congr_right fun _ => ih).trans hresumed
  | wait gate next ih =>
    exact (exists_congr fun _ => and_congr_right fun _ => ih).trans hresumed

theorem attempt_bind_iff {f : Except Failure α → Task σ β} :
    Shows others (t.attempt.bind f) s r s' xs
      ↔ ∃ x s₁ ys zs, Shows others t s x s₁ ys ∧ Shows others (f x) s₁ r s' zs
        ∧ xs = ys ++ zs := by
  rw [bind_iff]
  constructor
  · rintro (⟨x, s₁, ys, zs, ht, hf, rfl⟩ | ⟨e, -, ht⟩)
    · obtain ⟨x, ⟨⟩, ht⟩ := attempt_iff.mp ht
      exact ⟨x, s₁, ys, zs, ht, hf, rfl⟩
    · obtain ⟨x, hx, -⟩ := attempt_iff.mp ht
      cases hx
  · rintro ⟨x, s₁, ys, zs, ht, hf, rfl⟩
    exact .inl ⟨x, s₁, ys, zs, attempt_iff.mpr ⟨x, rfl, ht⟩, hf, rfl⟩

end Parts

/-- An act shows its own signals, and nothing happens in between. -/
theorem ofAct_iff {x : Act σ α} {s s' : σ} {r : Except Failure α} {xs : List Signal} :
    Shows others (ofAct x) s r s' xs ↔ x s = ⟨r, s', xs⟩ := by
  have hshown : ∀ (xs ys : List Signal) (o : Except Failure α) (s : σ),
      Shows others (emitAll xs (.done o)) s r s' ys ↔ r = o ∧ s' = s ∧ ys = xs := by
    intro xs ys o s
    induction xs generalizing ys with
    | nil => exact Iff.rfl
    | cons x xs ih =>
      constructor
      · rintro ⟨zs, rfl, h⟩
        obtain ⟨rfl, rfl, rfl⟩ := (ih zs).mp h
        exact ⟨rfl, rfl, rfl⟩
      · rintro ⟨rfl, rfl, rfl⟩
        exact ⟨xs, rfl, (ih xs).mpr ⟨rfl, rfl, rfl⟩⟩
  refine (hshown (x s).trace xs (x s).result (x s).state).trans ?_
  constructor
  · rintro ⟨rfl, rfl, rfl⟩
    rfl
  · intro h
    rw [h]
    exact ⟨rfl, rfl, rfl⟩

/-- What follows an act goes on from its state, unless the act fails. -/
theorem ofAct_bind_iff {x : Act σ α} {f : α → Task σ β} {s s' : σ} {r : Except Failure β}
    {xs : List Signal} : Shows others ((ofAct x).bind f) s r s' xs
      ↔ (∃ a zs, (x s).result = .ok a ∧ Shows others (f a) (x s).state r s' zs
          ∧ xs = (x s).trace ++ zs)
        ∨ ∃ e, r = .error e ∧ x s = ⟨.error e, s', xs⟩ := by
  rw [bind_iff]
  simp only [ofAct_iff]
  constructor
  · rintro (⟨a, s₁, ys, zs, hx, hf, rfl⟩ | h)
    · rw [hx]
      exact .inl ⟨a, zs, rfl, hf, rfl⟩
    · exact .inr h
  · rintro (⟨a, zs, ha, hf, rfl⟩ | h)
    · exact .inl ⟨a, _, _, zs, by rw [← ha], hf, rfl⟩
    · exact .inr h

end Shows

end Deeplink.Task

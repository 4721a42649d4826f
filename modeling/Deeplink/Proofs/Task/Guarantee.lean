import Deeplink.Proofs.Task.Work

/-!
# What tasks guarantee

A task that is suspended goes on in a state that others may have changed. What holds of each of its
own changes, in whatever state they are made, holds of everything it does.

- `Act.Keeps`: whatever state an act begins in, it is related to the one that the act leaves.
- `Task.Keeps`: every change of a task is one that a relation allows.
- `Task.Keeps.work`, `Task.Keeps.resume`: then so is the work of the task, and the same holds of
  what is left of it.
-/

namespace Deeplink

variable {σ τ α β γ : Type}

/-- What any number of changes in a row may be, none included. -/
structure IsPreorder (R : σ → σ → Prop) : Prop where
  refl : ∀ s, R s s
  trans : ∀ {s s' s''}, R s s' → R s' s'' → R s s''

/-! ## Acts -/

/-- What an act does to the state is allowed by `R`. -/
def Act.Keeps (R : σ → σ → Prop) (x : Act σ α) : Prop := ∀ s, R s (x s).state

namespace Act.Keeps

variable {R : σ → σ → Prop}

/-- What changes nothing keeps everything. -/
theorem same (hR : IsPreorder R) {x : Act σ α} (hx : ∀ s, (x s).state = s) : x.Keeps R :=
  fun s => (hx s).symm ▸ hR.refl s

/-- Acts that keep to a relation do so one after the other. -/
theorem bind (hR : IsPreorder R) {x : Act σ α} {f : α → Act σ β} (hx : x.Keeps R)
    (hf : ∀ a, (f a).Keeps R) : (x >>= f).Keeps R := by
  intro s
  cases h : (x s).result with
  | error e =>
    rw [bind_of_error h]
    exact hx s
  | ok a =>
    rw [bind_of_ok h]
    exact hR.trans (hx s) (hf a _)

end Act.Keeps

/-! ## Tasks -/

namespace Task

/-- Every change that a task makes, whatever others do in between, is one that `R` allows. -/
def Keeps (R : σ → σ → Prop) : Task σ α → Prop
  | .done _ => True
  | .act change next => ∀ s, R s (change s) ∧ (next s).Keeps R
  | .emit _ next => next.Keeps R
  | .pause next => next.Keeps R
  | .rest next => next.Keeps R
  | .wait _ next => next.Keeps R

namespace Keeps

variable {R S : σ → σ → Prop}

/-- Tasks that keep to a relation do so one after the other. -/
theorem bind {t : Task σ α} {f : α → Task σ β} (ht : t.Keeps R) (hf : ∀ a, (f a).Keeps R) :
    (t.bind f).Keeps R := by
  induction t with
  | done r =>
    cases r with
    | ok a => exact hf a
    | error e => trivial
  | act change next ih => exact fun s => ⟨(ht s).1, ih s (ht s).2⟩
  | emit x next ih => exact ih ht
  | pause next ih => exact ih ht
  | rest next ih => exact ih ht
  | wait gate next ih => exact ih ht

/-- A task whose failure is caught keeps to the same relation. -/
theorem attempt {t : Task σ α} (ht : t.Keeps R) : t.attempt.Keeps R := by
  induction t with
  | done r => trivial
  | act change next ih => exact fun s => ⟨(ht s).1, ih s (ht s).2⟩
  | emit x next ih => exact ih ht
  | pause next ih => exact ih ht
  | rest next ih => exact ih ht
  | wait gate next ih => exact ih ht

/-- What is done about an end keeps to a relation if each way to go on does. -/
theorem caught {f : α → Task σ β} {g : Except Failure β → Task σ γ} (hf : ∀ a, (f a).Keeps R)
    (hg : ∀ x, (g x).Keeps R) (x : Except Failure α) : (caught f g x).Keeps R := by
  cases x with
  | ok a => exact (hf a).attempt.bind hg
  | error e => exact hg (.error e)

theorem emitAll {t : Task σ α} (ht : t.Keeps R) (xs : List Signal) : (emitAll xs t).Keeps R := by
  induction xs with
  | nil => exact ht
  | cons x xs ih => exact ih

/-- An act is one change. -/
theorem ofAct {x : Act σ α} (hx : x.Keeps R) : (ofAct x).Keeps R :=
  fun s => ⟨hx s, emitAll (t := .done (x s).result) trivial _⟩

theorem modify {f : σ → σ} (hf : ∀ s, R s (f s)) : (Task.modify f).Keeps R :=
  fun s => ⟨hf s, trivial⟩

/-- To look at the state changes nothing. -/
theorem get (hR : ∀ s, R s s) : (Task.get : Task σ σ).Keeps R :=
  fun s => ⟨hR s, trivial⟩

/-- Who keeps to a relation keeps to any that is weaker. -/
theorem mono {t : Task σ α} (ht : t.Keeps R) (h : ∀ s s', R s s' → S s s') : t.Keeps S := by
  induction t with
  | done r => trivial
  | act change next ih => exact fun s => ⟨h _ _ (ht s).1, ih s (ht s).2⟩
  | emit x next ih => exact ih ht
  | pause next ih => exact ih ht
  | rest next ih => exact ih ht
  | wait gate next ih => exact ih ht

/-- A task on a part of the state makes no other change than those that putting the part back
makes. -/
theorem focus {part : τ → σ} {put : σ → τ → τ} {Q : τ → τ → Prop} {u : Task σ α}
    (hu : u.Keeps R) (h : ∀ s t, R (part t) s → Q t (put s t)) :
    (u.focus part put).Keeps Q := by
  induction u with
  | done r => trivial
  | act change next ih => exact fun t => ⟨h _ _ (hu (part t)).1, ih (part t) (hu (part t)).2⟩
  | emit x next ih => exact ih hu
  | pause next ih => exact ih hu
  | rest next ih => exact ih hu
  | wait gate next ih => exact ih hu

/-- Nothing is demanded of a task whose changes are all allowed. -/
theorem of_forall (t : Task σ α) (h : ∀ s s', R s s') : t.Keeps R := by
  induction t with
  | done r => trivial
  | act change next ih => exact fun s => ⟨h _ _, ih s⟩
  | emit x next ih => exact ih
  | pause next ih => exact ih
  | rest next ih => exact ih
  | wait gate next ih => exact ih

/-- **What every change of a task keeps, its work keeps**, and so does what is left of it. -/
theorem work (hR : IsPreorder R) {t : Task σ α} (ht : t.Keeps R) (isOpen : Text → Bool)
    (reach : Reach) (s : σ) :
    R s (t.work isOpen reach s).state ∧ (t.work isOpen reach s).task.Keeps R := by
  induction t generalizing reach s with
  | done r => exact ⟨hR.refl s, trivial⟩
  | act change next ih =>
    -- the change itself, and then the work from the state that it leaves
    have hrest := ih s (ht s).2 reach (change s)
    exact ⟨hR.trans (ht s).1 hrest.1, hrest.2⟩
  | emit x next ih => exact ih ht reach s
  | pause next ih =>
    simp only [Task.work]
    split
    · exact ⟨hR.refl s, ht⟩
    · exact ih ht reach s
  | rest next ih =>
    simp only [Task.work]
    split
    · exact ih ht reach s
    · exact ⟨hR.refl s, ht⟩
  | wait gate next ih =>
    simp only [Task.work]
    split
    · exact ih ht _ s
    · exact ⟨hR.refl s, ht⟩

/-- **One turn**: the relation holds from its beginning to its end, and what is left of the task
keeps to it too. -/
theorem resume (hR : IsPreorder R) {t : Task σ α} (ht : t.Keeps R) (isOpen : Text → Bool)
    (reach : Reach) (s : σ) :
    R s (t.resume isOpen reach s).state ∧ (t.resume isOpen reach s).task.Keeps R := by
  cases t with
  | done r => exact ⟨hR.refl s, trivial⟩
  | act change next => exact work hR ht isOpen reach s
  | emit x next => exact work hR ht isOpen reach s
  | pause next => exact work hR (t := next) ht isOpen reach s
  | rest next => exact work hR (t := next) ht isOpen reach s
  | wait gate next =>
    simp only [Task.resume]
    split
    · exact work hR (t := next) ht isOpen reach s
    · exact ⟨hR.refl s, ht⟩

end Keeps

/-! ## What is left of a task -/

/-- The second task may be what is left of the first one when it has been taken some way, whatever
others have done in between. -/
inductive Leaves (t : Task σ α) : Task σ α → Prop where
  | work (isOpen : Text → Bool) (reach : Reach) (s : σ) : Leaves t (t.work isOpen reach s).task
  | resume {u : Task σ α} (h : Leaves t u) (isOpen : Text → Bool) (reach : Reach) (s : σ) :
      Leaves t (u.resume isOpen reach s).task

/-- What is left of a task after any turns keeps to the relation that the task keeps to. -/
theorem Leaves.keeps {R : σ → σ → Prop} (hR : IsPreorder R) {t u : Task σ α} (h : t.Leaves u)
    (ht : t.Keeps R) : u.Keeps R := by
  induction h with
  | work isOpen reach s => exact (ht.work hR isOpen reach s).2
  | resume _ isOpen reach s ih => exact (ih.resume hR isOpen reach s).2

end Task

end Deeplink

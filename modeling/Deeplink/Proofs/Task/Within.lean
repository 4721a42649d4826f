import Deeplink.Proofs.Task.Guarantee

/-!
# Guarantees within states of a kind

What a task does may depend on the state that it finds. If neither the task nor the others leave the
states of a kind, it is enough to know what it does in those.

- `Task.KeepsIn`: every change of a task that is made in a state of a kind is allowed.
- `Task.Comes`: how far a task may have come, with others at work while it is suspended.
- `Task.KeepsIn.comes`: what every such change keeps is kept however far a task has come.
-/

namespace Deeplink.Task

variable {σ τ α β : Type}

/-- Every change that a task makes in a state of the kind `I` is one that `R` allows. -/
def KeepsIn (I : σ → Prop) (R : σ → σ → Prop) : Task σ α → Prop
  | .done _ => True
  | .act change next => ∀ s, I s → R s (change s) ∧ (next s).KeepsIn I R
  | .emit _ next => next.KeepsIn I R
  | .pause next => next.KeepsIn I R
  | .rest next => next.KeepsIn I R
  | .wait _ next => next.KeepsIn I R

namespace KeepsIn

variable {I : σ → Prop} {R : σ → σ → Prop}

/-- Who keeps to a relation everywhere does so within an invariant. -/
theorem of_keeps {t : Task σ α} (ht : t.Keeps R) : t.KeepsIn I R := by
  induction t with
  | done r => trivial
  | act change next ih => exact fun s _ => ⟨(ht s).1, ih s (ht s).2⟩
  | emit x next ih => exact ih ht
  | pause next ih => exact ih ht
  | rest next ih => exact ih ht
  | wait gate next ih => exact ih ht

/-- Tasks keep to it one after the other, because each leaves the invariant behind for the next. -/
theorem bind {t : Task σ α} {f : α → Task σ β} (ht : t.KeepsIn I R)
    (hf : ∀ a, (f a).KeepsIn I R) : (t.bind f).KeepsIn I R := by
  induction t with
  | done r =>
    cases r with
    | ok a => exact hf a
    | error e => trivial
  | act change next ih => exact fun s hs => ⟨(ht s hs).1, ih s (ht s hs).2⟩
  | emit x next ih => exact ih ht
  | pause next ih => exact ih ht
  | rest next ih => exact ih ht
  | wait gate next ih => exact ih ht

theorem attempt {t : Task σ α} (ht : t.KeepsIn I R) : t.attempt.KeepsIn I R := by
  induction t with
  | done r => trivial
  | act change next ih => exact fun s hs => ⟨(ht s hs).1, ih s (ht s hs).2⟩
  | emit x next ih => exact ih ht
  | pause next ih => exact ih ht
  | rest next ih => exact ih ht
  | wait gate next ih => exact ih ht

/-- What follows a look at the state may count on the kind of the state. -/
theorem get_bind {f : σ → Task σ β} (hR : ∀ s, R s s) (hf : ∀ s, I s → (f s).KeepsIn I R) :
    (Task.get.bind f).KeepsIn I R :=
  fun s hs => ⟨hR s, hf s hs⟩

theorem ofAct {x : Act σ α} (hx : ∀ s, I s → R s (x s).state) : (ofAct x).KeepsIn I R :=
  fun s hs => ⟨hx s hs, of_keeps (.emitAll (t := .done (x s).result) trivial _)⟩

/-- What follows an act may count on how it has ended. -/
theorem ofAct_bind {x : Act σ α} {f : α → Task σ β} (hx : ∀ s, I s → R s (x s).state)
    (hf : ∀ s a, I s → (x s).result = .ok a → (f a).KeepsIn I R) :
    ((Task.ofAct x).bind f).KeepsIn I R := by
  intro s hs
  refine ⟨hx s hs, ?_⟩
  have hshown (xs : List Signal) {r : Except Failure α} (hr : (x s).result = r) :
      ((Task.emitAll xs (.done r)).bind f).KeepsIn I R := by
    induction xs with
    | nil =>
      cases r with
      | ok a => exact hf s a hs hr
      | error e => trivial
    | cons signal xs ih => exact ih
  exact hshown _ rfl

end KeepsIn

/-! ## Taking a task some way -/

/-- How far a task that begins in a state may have come: it is taken some way, and again after
others have changed the state while it was suspended. -/
inductive Comes (others : σ → σ → Prop) (t : Task σ α) (s : σ) : Task σ α → σ → Prop where
  | work (isOpen : Text → Bool) (reach : Reach) :
      Comes others t s (t.work isOpen reach s).task (t.work isOpen reach s).state
  | resume {u : Task σ α} {s' s₁ : σ} (h : Comes others t s u s') (hothers : others s' s₁)
      (isOpen : Text → Bool) (reach : Reach) :
      Comes others t s (u.resume isOpen reach s₁).task (u.resume isOpen reach s₁).state

namespace KeepsIn

variable {I : σ → Prop} {R : σ → σ → Prop} (hR : IsPreorder R) (hI : ∀ {s s'}, R s s' → I s → I s')

include hR hI

/-- What every change keeps that is made in a state of a kind, the work of the task keeps that
begins in one. -/
theorem work {t : Task σ α} (ht : t.KeepsIn I R) (isOpen : Text → Bool) (reach : Reach) {s : σ}
    (hs : I s) : R s (t.work isOpen reach s).state ∧ (t.work isOpen reach s).task.KeepsIn I R := by
  induction t generalizing reach s with
  | done r => exact ⟨hR.refl s, trivial⟩
  | act change next ih =>
    obtain ⟨hchange, hnext⟩ := ht s hs
    obtain ⟨hrest, hleft⟩ := ih s hnext reach (hI hchange hs)
    exact ⟨hR.trans hchange hrest, hleft⟩
  | emit x next ih => exact ih ht reach hs
  | pause next ih =>
    simp only [Task.work]
    split
    · exact ⟨hR.refl s, ht⟩
    · exact ih ht reach hs
  | rest next ih =>
    simp only [Task.work]
    split
    · exact ih ht reach hs
    · exact ⟨hR.refl s, ht⟩
  | wait gate next ih =>
    simp only [Task.work]
    split
    · exact ih ht _ hs
    · exact ⟨hR.refl s, ht⟩

/-- **One turn**: from where the invariant holds, the relation is kept to, and so it is by what is
left. -/
theorem resume {t : Task σ α} (ht : t.KeepsIn I R) (isOpen : Text → Bool) (reach : Reach) {s : σ}
    (hs : I s) :
    R s (t.resume isOpen reach s).state ∧ (t.resume isOpen reach s).task.KeepsIn I R := by
  cases t with
  | done r => exact ⟨hR.refl s, trivial⟩
  | act change next => exact work hR hI ht isOpen reach hs
  | emit x next => exact work hR hI ht isOpen reach hs
  | pause next => exact work hR hI (t := next) ht isOpen reach hs
  | rest next => exact work hR hI (t := next) ht isOpen reach hs
  | wait gate next =>
    simp only [Task.resume]
    split
    · exact work hR hI (t := next) ht isOpen reach hs
    · exact ⟨hR.refl s, ht⟩

/-- **However far a task has come, what every change keeps has been kept**, if others keep it
too. -/
theorem comes {others : σ → σ → Prop} (hothers : ∀ {s s'}, others s s' → R s s') {t u : Task σ α}
    {s s' : σ} (ht : t.KeepsIn I R) (hs : I s) (h : Comes others t s u s') :
    R s s' ∧ u.KeepsIn I R := by
  induction h with
  | work isOpen reach => exact ht.work hR hI isOpen reach hs
  | resume _ ho isOpen reach ih =>
    obtain ⟨hbefore, hleft⟩ := ih
    have hstart := hR.trans hbefore (hothers ho)
    obtain ⟨hrest, hleft⟩ := hleft.resume hR hI isOpen reach (hI hstart hs)
    exact ⟨hR.trans hstart hrest, hleft⟩

end KeepsIn

end Deeplink.Task

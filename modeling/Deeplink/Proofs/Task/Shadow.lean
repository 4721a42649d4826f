import Deeplink.Proofs.Task.Work

/-!
# Shadows of tasks

Notes that are kept in the state beside the work must not change it. One task is the shadow of
another one if it does the same to what a view shows of the state, and the same to the outside.

- `Act.Shadows`, `Task.Shadows`: the relation for acts, and for tasks, which may in addition make
  changes that the view does not show.
- `Task.Shadows.work`: the shadow of a task does the same work.
-/

namespace Deeplink

variable {σ τ α β : Type}

/-! ## Acts -/

/-- Both acts end in the same way, with the same state as far as the view shows it. -/
def Act.Shadows (view : τ → σ) (x : Act τ α) (y : Act σ α) : Prop :=
  ∀ t, (x t).result = (y (view t)).result ∧ view (x t).state = (y (view t)).state
    ∧ (x t).trace = (y (view t)).trace

namespace Act.Shadows

variable {view : τ → σ}

theorem pure (a : α) : Act.Shadows view (Pure.pure a) (Pure.pure a) :=
  fun _ => ⟨rfl, rfl, rfl⟩

theorem emit (x : Signal) : Act.Shadows view (Act.emit x) (Act.emit x) :=
  fun _ => ⟨rfl, rfl, rfl⟩

theorem fail (e : Failure) : Act.Shadows view (Act.fail e : Act τ α) (Act.fail e) :=
  fun _ => ⟨rfl, rfl, rfl⟩

/-- One act after another is seen as one after the other. -/
theorem bind {x : Act τ α} {y : Act σ α} {f : α → Act τ β} {g : α → Act σ β}
    (h : Act.Shadows view x y) (hfg : ∀ a, Act.Shadows view (f a) (g a)) :
    Act.Shadows view (x >>= f) (y >>= g) := by
  intro t
  obtain ⟨hr, hs, ht⟩ := h t
  cases hy : (y (view t)).result with
  | error e =>
    rw [bind_of_error (hr.trans hy), bind_of_error hy]
    exact ⟨rfl, hs, ht⟩
  | ok a =>
    obtain ⟨hr', hs', ht'⟩ := hfg a (x t).state
    rw [bind_of_ok (hr.trans hy), bind_of_ok hy, ← hs]
    exact ⟨hr', hs', by rw [ht, ht']⟩

/-- A failure that is caught is the same failure. -/
theorem attempt {x : Act τ α} {y : Act σ α} (h : Act.Shadows view x y) :
    Act.Shadows view x.attempt y.attempt := by
  intro t
  obtain ⟨hr, hs, ht⟩ := h t
  exact ⟨congrArg Except.ok hr, hs, ht⟩

end Act.Shadows

/-! ## Tasks -/

namespace Task

/-- The second task does to the view of the state what the first one does to the state, except for
changes that the view does not show. -/
inductive Shadows (view : τ → σ) : Task τ α → Task σ α → Prop where
  | done (r : Except Failure α) : Shadows view (.done r) (.done r)
  | act {change : τ → τ} {change' : σ → σ} {next : τ → Task τ α} {next' : σ → Task σ α}
      (hchange : ∀ t, view (change t) = change' (view t))
      (hnext : ∀ t, Shadows view (next t) (next' (view t))) :
      Shadows view (.act change next) (.act change' next')
  | hidden {change : τ → τ} {next : τ → Task τ α} {u : Task σ α}
      (hchange : ∀ t, view (change t) = view t) (hnext : ∀ t, Shadows view (next t) u) :
      Shadows view (.act change next) u
  | emit (x : Signal) {t : Task τ α} {u : Task σ α} (h : Shadows view t u) :
      Shadows view (.emit x t) (.emit x u)
  | pause {t : Task τ α} {u : Task σ α} (h : Shadows view t u) :
      Shadows view (.pause t) (.pause u)
  | rest {t : Task τ α} {u : Task σ α} (h : Shadows view t u) : Shadows view (.rest t) (.rest u)
  | wait (gate : Text) {t : Task τ α} {u : Task σ α} (h : Shadows view t u) :
      Shadows view (.wait gate t) (.wait gate u)

namespace Shadows

variable {view : τ → σ}

/-- Tasks that go on alike are seen to go on alike. -/
theorem bind {t : Task τ α} {u : Task σ α} {f : α → Task τ β} {g : α → Task σ β}
    (h : Shadows view t u) (hfg : ∀ a, Shadows view (f a) (g a)) :
    Shadows view (t.bind f) (u.bind g) := by
  induction h with
  | done r =>
    cases r with
    | ok a => exact hfg a
    | error e => exact .done (.error e)
  | act hchange _ ih => exact .act hchange ih
  | hidden hchange _ ih => exact .hidden hchange ih
  | emit x _ ih => exact .emit x ih
  | pause _ ih => exact .pause ih
  | rest _ ih => exact .rest ih
  | wait gate _ ih => exact .wait gate ih

/-- What is caught of tasks that go on alike is the same. -/
theorem attempt {t : Task τ α} {u : Task σ α} (h : Shadows view t u) :
    Shadows view t.attempt u.attempt := by
  induction h with
  | done r => exact .done (.ok r)
  | act hchange _ ih => exact .act hchange ih
  | hidden hchange _ ih => exact .hidden hchange ih
  | emit x _ ih => exact .emit x ih
  | pause _ ih => exact .pause ih
  | rest _ ih => exact .rest ih
  | wait gate _ ih => exact .wait gate ih

theorem emitAll {t : Task τ α} {u : Task σ α} (h : Shadows view t u) (xs : List Signal) :
    Shadows view (emitAll xs t) (Task.emitAll xs u) := by
  induction xs with
  | nil => exact h
  | cons x xs ih => exact .emit x ih

/-- An act that is seen is a task that is seen. -/
theorem ofAct {x : Act τ α} {y : Act σ α} (h : Act.Shadows view x y) :
    Shadows view (Task.ofAct x) (Task.ofAct y) := by
  refine .act (fun t => (h t).2.1) fun t => ?_
  rw [(h t).1, (h t).2.2]
  exact emitAll (.done _) _

/-- Who looks at the state sees the view of it. -/
theorem get_bind {f : τ → Task τ β} {g : σ → Task σ β}
    (h : ∀ t, Shadows view (f t) (g (view t))) :
    Shadows view (Task.get.bind f) (Task.get.bind g) :=
  .act (fun _ => rfl) h

/-- A task on a part of the state is shadowed by what it does to that part. -/
theorem focus {put : σ → τ → τ} (hput : IsPart view put) (u : Task σ α) :
    Shadows view (u.focus view put) u := by
  induction u with
  | done r => exact .done r
  | act change next ih => exact .act (fun t => hput.part_put _ t) fun t => ih (view t)
  | emit x next ih => exact .emit x ih
  | pause next ih => exact .pause ih
  | rest next ih => exact .rest ih
  | wait gate next ih => exact .wait gate ih

/-- Cleaning up what the view does not show is not seen. -/
theorem ensuring {t : Task τ α} {u : Task σ α} (h : Shadows view t u) {cleanup : τ → τ}
    (hcleanup : ∀ t, view (cleanup t) = view t) : Shadows view (t.ensuring cleanup) u := by
  induction h with
  | done r => exact .hidden hcleanup fun _ => .done r
  | act hchange _ ih => exact .act hchange ih
  | hidden hchange _ ih => exact .hidden hchange ih
  | emit x _ ih => exact .emit x ih
  | pause _ ih => exact .pause ih
  | rest _ ih => exact .rest ih
  | wait gate _ ih => exact .wait gate ih

/-- **A task and its shadow do the same work**, and what is left of them is again a task and its
shadow. -/
theorem work {t : Task τ α} {u : Task σ α} (h : Shadows view t u) (isOpen : Text → Bool)
    (reach : Reach) (s : τ) :
    Shadows view (t.work isOpen reach s).task (u.work isOpen reach (view s)).task
      ∧ view (t.work isOpen reach s).state = (u.work isOpen reach (view s)).state
      ∧ (t.work isOpen reach s).trace = (u.work isOpen reach (view s)).trace := by
  induction h generalizing reach s with
  | done r => exact ⟨.done r, rfl, rfl⟩
  | @act change change' next next' hchange hnext ih =>
    have hnext := ih s reach (change s)
    rw [hchange s] at hnext
    exact hnext
  | @hidden change next u hchange hnext ih =>
    -- the second task has not moved, and the view has not changed
    have hnext := ih s reach (change s)
    rw [hchange s] at hnext
    exact hnext
  | emit x h ih =>
    obtain ⟨htask, hstate, htrace⟩ := ih reach s
    exact ⟨htask, hstate, congrArg (x :: ·) htrace⟩
  | pause h ih =>
    simp only [Task.work]
    split
    · exact ⟨.pause h, rfl, rfl⟩
    · exact ih reach s
  | rest h ih =>
    simp only [Task.work]
    split
    · exact ih reach s
    · exact ⟨.rest h, rfl, rfl⟩
  | wait gate h ih =>
    simp only [Task.work]
    split
    · exact ih _ s
    · exact ⟨.wait gate h, rfl, rfl⟩

end Shadows

end Task

end Deeplink

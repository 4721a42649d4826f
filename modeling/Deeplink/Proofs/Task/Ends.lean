import Deeplink.Proofs.Task.Guarantee

/-!
# How tasks end

A task goes on until it has settled. Whenever it is suspended, others may change the state before it
goes on, as far as a relation allows them to.

- `Task.Ends`: a task that begins in one state may end with a result in another one.
- `Task.Ends.of_bind`, `Task.Ends.of_attempt`, `Task.Ends.of_ofAct`: the end of a task that is put
  together, taken apart into the ends of its parts.
- `Task.OnPart`: others change a part of the state alone.
- `Task.Ends.bind_iff`, `Task.Ends.attempt_bind_iff`, `Task.Ends.focus_iff`: the ends of its parts
  make up its end.
- `Task.Ends.keeps`: what every change of a task and of the others keeps, the whole of it keeps.
- `Task.Ends.work`, `Task.Ends.resume`: how far a task is taken at once makes no difference.
- `Task.Ends.whole`: the run of a task that nothing holds up is one of its ends.
-/

namespace Deeplink.Task

variable {σ τ α β : Type} {others : σ → σ → Prop}

/-- A task that begins in the first state may end with the result in the second one, if others
change the state only as `others` says, and only while the task is suspended. -/
inductive Ends (others : σ → σ → Prop) : Task σ α → σ → Except Failure α → σ → Prop where
  | done (r : Except Failure α) (s : σ) : Ends others (.done r) s r s
  | act {change : σ → σ} {next : σ → Task σ α} {s s' : σ} {r : Except Failure α}
      (h : Ends others (next s) (change s) r s') : Ends others (.act change next) s r s'
  | emit {x : Signal} {next : Task σ α} {s s' : σ} {r : Except Failure α}
      (h : Ends others next s r s') : Ends others (.emit x next) s r s'
  | pause {next : Task σ α} {s s₁ s' : σ} {r : Except Failure α} (hothers : others s s₁)
      (h : Ends others next s₁ r s') : Ends others (.pause next) s r s'
  | rest {next : Task σ α} {s s₁ s' : σ} {r : Except Failure α} (hothers : others s s₁)
      (h : Ends others next s₁ r s') : Ends others (.rest next) s r s'
  | wait {gate : Text} {next : Task σ α} {s s₁ s' : σ} {r : Except Failure α}
      (hothers : others s s₁) (h : Ends others next s₁ r s') : Ends others (.wait gate next) s r s'

/-- Others change a part of the state alone, as a relation allows them to. -/
def OnPart (part : τ → σ) (put : σ → τ → τ) (others : σ → σ → Prop) (s s' : τ) : Prop :=
  ∃ v, others (part s) v ∧ s' = put v s

/-- Others that work on a part stay on that part. -/
theorem OnPart.isPreorder {part : τ → σ} {put : σ → τ → τ} (hput : IsPart part put)
    (hothers : IsPreorder others) : IsPreorder (OnPart part put others) where
  refl s := ⟨part s, hothers.refl _, (hput.put_part s).symm⟩
  trans := by
    rintro s _ _ ⟨v, hv, rfl⟩ ⟨w, hw, rfl⟩
    rw [hput.part_put] at hw
    exact ⟨w, hothers.trans hv hw, hput.put_put w v s⟩

namespace Ends

/-! ## Tasks that are put together -/

/-- Two tasks in a row: the first one has failed, or the second one ends after it. -/
theorem of_bind {t : Task σ α} {f : α → Task σ β} {s s' : σ} {r : Except Failure β}
    (h : Ends others (t.bind f) s r s') :
    (∃ a s₁, Ends others t s (.ok a) s₁ ∧ Ends others (f a) s₁ r s')
      ∨ ∃ e, r = .error e ∧ Ends others t s (.error e) s' := by
  induction t generalizing s with
  | done x =>
    cases x with
    | ok a => exact .inl ⟨a, s, .done _ s, h⟩
    | error e =>
      cases h with
      | done => exact .inr ⟨e, rfl, .done _ _⟩
  | act change next ih =>
    cases h with
    | act h =>
      rcases ih s h with ⟨a, s₁, ht, hf⟩ | ⟨e, rfl, ht⟩
      · exact .inl ⟨a, s₁, .act ht, hf⟩
      · exact .inr ⟨e, rfl, .act ht⟩
  | emit x next ih =>
    cases h with
    | emit h =>
      rcases ih h with ⟨a, s₁, ht, hf⟩ | ⟨e, rfl, ht⟩
      · exact .inl ⟨a, s₁, .emit ht, hf⟩
      · exact .inr ⟨e, rfl, .emit ht⟩
  | pause next ih =>
    cases h with
    | pause hothers h =>
      rcases ih h with ⟨a, s₁, ht, hf⟩ | ⟨e, rfl, ht⟩
      · exact .inl ⟨a, s₁, .pause hothers ht, hf⟩
      · exact .inr ⟨e, rfl, .pause hothers ht⟩
  | rest next ih =>
    cases h with
    | rest hothers h =>
      rcases ih h with ⟨a, s₁, ht, hf⟩ | ⟨e, rfl, ht⟩
      · exact .inl ⟨a, s₁, .rest hothers ht, hf⟩
      · exact .inr ⟨e, rfl, .rest hothers ht⟩
  | wait gate next ih =>
    cases h with
    | wait hothers h =>
      rcases ih h with ⟨a, s₁, ht, hf⟩ | ⟨e, rfl, ht⟩
      · exact .inl ⟨a, s₁, .wait hothers ht, hf⟩
      · exact .inr ⟨e, rfl, .wait hothers ht⟩

/-- If both tasks succeed, the second one begins where the first one has ended. -/
theorem of_bind_ok {t : Task σ α} {f : α → Task σ β} {s s' : σ} {b : β}
    (h : Ends others (t.bind f) s (.ok b) s') :
    ∃ a s₁, Ends others t s (.ok a) s₁ ∧ Ends others (f a) s₁ (.ok b) s' := by
  rcases h.of_bind with h | ⟨e, he, -⟩
  · exact h
  · cases he

/-- Catching failures does not change how a task ends. -/
theorem of_attempt {t : Task σ α} {s s' : σ} {r : Except Failure (Except Failure α)}
    (h : Ends others t.attempt s r s') : ∃ x, r = .ok x ∧ Ends others t s x s' := by
  induction t generalizing s with
  | done x =>
    cases h with
    | done => exact ⟨x, rfl, .done x _⟩
  | act change next ih =>
    cases h with
    | act h =>
      obtain ⟨x, rfl, ht⟩ := ih s h
      exact ⟨x, rfl, .act ht⟩
  | emit y next ih =>
    cases h with
    | emit h =>
      obtain ⟨x, rfl, ht⟩ := ih h
      exact ⟨x, rfl, .emit ht⟩
  | pause next ih =>
    cases h with
    | pause hothers h =>
      obtain ⟨x, rfl, ht⟩ := ih h
      exact ⟨x, rfl, .pause hothers ht⟩
  | rest next ih =>
    cases h with
    | rest hothers h =>
      obtain ⟨x, rfl, ht⟩ := ih h
      exact ⟨x, rfl, .rest hothers ht⟩
  | wait gate next ih =>
    cases h with
    | wait hothers h =>
      obtain ⟨x, rfl, ht⟩ := ih h
      exact ⟨x, rfl, .wait hothers ht⟩

/-- To emit signals changes nothing. -/
theorem of_emitAll {xs : List Signal} {t : Task σ α} {s s' : σ} {r : Except Failure α}
    (h : Ends others (emitAll xs t) s r s') : Ends others t s r s' := by
  induction xs with
  | nil => exact h
  | cons x xs ih =>
    cases h with
    | emit h => exact ih h

/-- An act is not suspended, so that others do nothing. -/
theorem of_ofAct {x : Act σ α} {s s' : σ} {r : Except Failure α}
    (h : Ends others (ofAct x) s r s') : r = (x s).result ∧ s' = (x s).state := by
  cases h with
  | act h =>
    cases h.of_emitAll with
    | done => exact ⟨rfl, rfl⟩

/-- Who looks at the state goes on at once. -/
theorem of_get_bind {f : σ → Task σ α} {s s' : σ} {r : Except Failure α}
    (h : Ends others (Task.get.bind f) s r s') : Ends others (f s) s r s' := by
  cases h with
  | act h => exact h

/-! ## Putting ends together -/

/-- A task that ends with success goes on as the next one. -/
theorem bind {t : Task σ α} {f : α → Task σ β} {s s₁ s' : σ} {a : α} {r : Except Failure β}
    (ht : Ends others t s (.ok a) s₁) (hf : Ends others (f a) s₁ r s') :
    Ends others (t.bind f) s r s' := by
  generalize hx : Except.ok a = x at ht
  induction ht with
  | done x s =>
    subst hx
    exact hf
  | act _ ih => exact .act (ih hf hx)
  | emit _ ih => exact .emit (ih hf hx)
  | pause ho _ ih => exact .pause ho (ih hf hx)
  | rest ho _ ih => exact .rest ho (ih hf hx)
  | wait ho _ ih => exact .wait ho (ih hf hx)

/-- A task that fails goes no further. -/
theorem bind_error {t : Task σ α} {s s' : σ} {e : Failure} (ht : Ends others t s (.error e) s')
    (f : α → Task σ β) : Ends others (t.bind f) s (.error e) s' := by
  generalize hx : Except.error e = x at ht
  induction ht with
  | done x s =>
    subst hx
    exact .done _ s
  | act _ ih => exact .act (ih hx)
  | emit _ ih => exact .emit (ih hx)
  | pause ho _ ih => exact .pause ho (ih hx)
  | rest ho _ ih => exact .rest ho (ih hx)
  | wait ho _ ih => exact .wait ho (ih hx)

/-- **One task after the other** ends as the second one after the first, or as the first one if it
fails. -/
theorem bind_iff {t : Task σ α} {f : α → Task σ β} {s s' : σ} {r : Except Failure β} :
    Ends others (t.bind f) s r s'
      ↔ (∃ a s₁, Ends others t s (.ok a) s₁ ∧ Ends others (f a) s₁ r s')
        ∨ ∃ e, r = .error e ∧ Ends others t s (.error e) s' := by
  constructor
  · exact of_bind
  · rintro (⟨a, s₁, ht, hf⟩ | ⟨e, rfl, ht⟩)
    · exact ht.bind hf
    · exact ht.bind_error f

/-- An attempt ends with what its task has ended with. -/
theorem attempt {t : Task σ α} {s s' : σ} {x : Except Failure α} (h : Ends others t s x s') :
    Ends others t.attempt s (.ok x) s' := by
  induction h with
  | done x s => exact .done _ s
  | act _ ih => exact .act ih
  | emit _ ih => exact .emit ih
  | pause ho _ ih => exact .pause ho ih
  | rest ho _ ih => exact .rest ho ih
  | wait ho _ ih => exact .wait ho ih

/-- What follows a task in any case goes on from its end. -/
theorem attempt_bind_iff {t : Task σ α} {f : Except Failure α → Task σ β} {s s' : σ}
    {r : Except Failure β} : Ends others (t.attempt.bind f) s r s'
      ↔ ∃ x s₁, Ends others t s x s₁ ∧ Ends others (f x) s₁ r s' := by
  constructor
  · intro h
    rcases h.of_bind with ⟨x, s₁, ht, hf⟩ | ⟨e, -, ht⟩
    · obtain ⟨x, hx, ht⟩ := ht.of_attempt
      obtain rfl := Except.ok.inj hx
      exact ⟨x, s₁, ht, hf⟩
    · obtain ⟨x, hx, -⟩ := ht.of_attempt
      cases hx
  · rintro ⟨x, s₁, ht, hf⟩
    exact ht.attempt.bind hf

/-- A task that is never suspended has one end. -/
theorem prompt_iff {t : Task σ α} (ht : t.Prompt) {s s' : σ} {r : Except Failure α} :
    Ends others t s r s' ↔ r = (t.whole s).result ∧ s' = (t.whole s).state := by
  constructor
  · intro h
    induction h with
    | done r s => exact ⟨rfl, rfl⟩
    | @act change next s s' r _ ih => exact ih (ht s)
    | emit _ ih => exact ih ht
    | pause _ _ _ => exact ht.elim
    | rest _ _ _ => exact ht.elim
    | wait _ _ _ => exact ht.elim
  · rintro ⟨rfl, rfl⟩
    induction t generalizing s with
    | done r => exact .done r s
    | act change next ih => exact .act (ih s (ht s))
    | emit x next ih => exact .emit (ih ht)
    | pause next => exact ht.elim
    | rest next => exact ht.elim
    | wait gate next => exact ht.elim

/-- An act has one end, whatever others may do. -/
theorem ofAct_iff {x : Act σ α} {s s' : σ} {r : Except Failure α} :
    Ends others (ofAct x) s r s' ↔ r = (x s).result ∧ s' = (x s).state := by
  constructor
  · exact of_ofAct
  · rintro ⟨rfl, rfl⟩
    refine .act ?_
    induction (x s).trace with
    | nil => exact .done _ _
    | cons signal xs ih => exact .emit ih

/-- What follows an act that has succeeded goes on from its state. -/
theorem ofAct_bind_iff {x : Act σ α} {f : α → Task σ β} {s s' : σ} {a : α} {r : Except Failure β}
    (hx : (x s).result = .ok a) :
    Ends others ((ofAct x).bind f) s r s' ↔ Ends others (f a) (x s).state r s' := by
  rw [bind_iff]
  constructor
  · rintro (⟨a', s₁, hact, hf⟩ | ⟨e, -, hact⟩)
    · obtain ⟨ha', rfl⟩ := hact.of_ofAct
      rw [hx] at ha'
      obtain rfl := Except.ok.inj ha'
      exact hf
    · obtain ⟨he, -⟩ := hact.of_ofAct
      rw [hx] at he
      cases he
  · intro hf
    exact .inl ⟨a, _, ofAct_iff.mpr ⟨hx.symm, rfl⟩, hf⟩

theorem modify_bind_iff {f : σ → σ} {g : Unit → Task σ α} {s s' : σ} {r : Except Failure α} :
    Ends others ((modify f).bind g) s r s' ↔ Ends others (g ()) (f s) r s' := by
  constructor
  · intro h
    cases h with
    | act h => exact h
  · intro h
    refine .act ?_
    exact h

section Focus

variable {part : τ → σ} {put : σ → τ → τ} (hput : IsPart part put)

include hput

/-- Work on a part ends as it does by itself, if others only work on that part. -/
theorem of_focus {t : Task σ α} {s s' : τ} {r : Except Failure α}
    (h : Ends (OnPart part put others) (t.focus part put) s r s') :
    ∃ v, Ends others t (part s) r v ∧ s' = put v s := by
  induction t generalizing s with
  | done x =>
    cases h with
    | done => exact ⟨_, .done _ _, (hput.put_part _).symm⟩
  | act change next ih =>
    cases h with
    | act h =>
      obtain ⟨v, hv, rfl⟩ := ih _ h
      rw [hput.part_put] at hv
      exact ⟨v, .act hv, hput.put_put _ _ _⟩
  | emit x next ih =>
    cases h with
    | emit h =>
      obtain ⟨v, hv, rfl⟩ := ih h
      exact ⟨v, .emit hv, rfl⟩
  | pause next ih =>
    cases h with
    | pause ho h =>
      obtain ⟨w, hw, rfl⟩ := ho
      obtain ⟨v, hv, rfl⟩ := ih h
      rw [hput.part_put] at hv
      exact ⟨v, .pause hw hv, hput.put_put _ _ _⟩
  | rest next ih =>
    cases h with
    | rest ho h =>
      obtain ⟨w, hw, rfl⟩ := ho
      obtain ⟨v, hv, rfl⟩ := ih h
      rw [hput.part_put] at hv
      exact ⟨v, .rest hw hv, hput.put_put _ _ _⟩
  | wait gate next ih =>
    cases h with
    | wait ho h =>
      obtain ⟨w, hw, rfl⟩ := ho
      obtain ⟨v, hv, rfl⟩ := ih h
      rw [hput.part_put] at hv
      exact ⟨v, .wait hw hv, hput.put_put _ _ _⟩

/-- A task that ends by itself has the same end as work on a part, if others only work on that
part. -/
theorem focus {t : Task σ α} {p v : σ} {r : Except Failure α} (h : Ends others t p r v) {s : τ}
    (hp : part s = p) : Ends (OnPart part put others) (t.focus part put) s r (put v s) := by
  induction h generalizing s with
  | done x p =>
    subst hp
    rw [hput.put_part]
    exact .done x s
  | @act change next p v x _ ih =>
    subst hp
    have hrest := ih (s := put (change (part s)) s) (hput.part_put _ _)
    rw [hput.put_put] at hrest
    exact .act hrest
  | emit _ ih => exact .emit (ih hp)
  | @pause next p w v x ho _ ih =>
    subst hp
    have hrest := ih (s := put w s) (hput.part_put _ _)
    rw [hput.put_put] at hrest
    exact .pause ⟨w, ho, rfl⟩ hrest
  | @rest next p w v x ho _ ih =>
    subst hp
    have hrest := ih (s := put w s) (hput.part_put _ _)
    rw [hput.put_put] at hrest
    exact .rest ⟨w, ho, rfl⟩ hrest
  | @wait gate next p w v x ho _ ih =>
    subst hp
    have hrest := ih (s := put w s) (hput.part_put _ _)
    rw [hput.put_put] at hrest
    exact .wait ⟨w, ho, rfl⟩ hrest

/-- A task on a part of the state ends as it does on that part alone, if others change nothing but
that part. -/
theorem focus_iff {t : Task σ α} {s s' : τ} {r : Except Failure α} :
    Ends (OnPart part put others) (t.focus part put) s r s'
      ↔ ∃ v, Ends others t (part s) r v ∧ s' = put v s := by
  constructor
  · exact of_focus hput
  · rintro ⟨v, h, rfl⟩
    exact h.focus hput rfl

end Focus

/-! ## What is kept -/

/-- **What every change keeps is kept from the beginning to the end**, the changes of the others
included. -/
theorem keeps {R : σ → σ → Prop} (hR : IsPreorder R) (hothers : ∀ {s s'}, others s s' → R s s')
    {t : Task σ α} (ht : t.Keeps R) {s s' : σ} {r : Except Failure α} (h : Ends others t s r s') :
    R s s' := by
  induction h with
  | done r s => exact hR.refl s
  | @act change next s s' r h ih => exact hR.trans (ht s).1 (ih (ht s).2)
  | emit h ih => exact ih ht
  | pause ho h ih => exact hR.trans (hothers ho) (ih ht)
  | rest ho h ih => exact hR.trans (hothers ho) (ih ht)
  | wait ho h ih => exact hR.trans (hothers ho) (ih ht)

/-! ## Taking a task some way -/

section Reaches

variable (hothers : IsPreorder others)

include hothers

/-- **However far a task is taken at once, it ends as it does when it goes on from there.** -/
theorem work (isOpen : Text → Bool) (reach : Reach) {t : Task σ α} {s s' : σ} {r : Except Failure α}
    (h : Ends others (t.work isOpen reach s).task (t.work isOpen reach s).state r s') :
    Ends others t s r s' := by
  induction t generalizing reach s with
  | done x => exact h
  | act change next ih => exact .act (ih s reach h)
  | emit x next ih => exact .emit (ih reach h)
  | pause next ih =>
    simp only [Task.work] at h
    split at h
    · exact h
    · exact .pause (hothers.refl s) (ih reach h)
  | rest next ih =>
    simp only [Task.work] at h
    split at h
    · exact .rest (hothers.refl s) (ih reach h)
    · exact h
  | wait gate next ih =>
    simp only [Task.work] at h
    split at h
    · exact .wait (hothers.refl s) (ih _ h)
    · exact h

/-- A turn is a part of the way to an end. -/
theorem resume (isOpen : Text → Bool) (reach : Reach) {u : Task σ α} {s s' : σ}
    {r : Except Failure α}
    (h : Ends others (u.resume isOpen reach s).task (u.resume isOpen reach s).state r s') :
    Ends others u s r s' := by
  cases u with
  | done x => exact h
  | act change next => exact work hothers isOpen reach h
  | emit x next => exact work hothers isOpen reach h
  | pause next => exact .pause (hothers.refl s) (work hothers isOpen reach h)
  | rest next => exact .rest (hothers.refl s) (work hothers isOpen reach h)
  | wait gate next =>
    simp only [Task.resume] at h
    split at h
    · exact .wait (hothers.refl s) (work hothers isOpen reach h)
    · exact h

/-- The run that nothing holds up is one in which others do nothing. -/
theorem whole (t : Task σ α) (s : σ) : Ends others t s (t.whole s).result (t.whole s).state := by
  induction t generalizing s with
  | done r => exact .done r s
  | act change next ih => exact .act (ih s (change s))
  | emit x next ih => exact .emit (ih s)
  | pause next ih => exact .pause (hothers.refl s) (ih s)
  | rest next ih => exact .rest (hothers.refl s) (ih s)
  | wait gate next ih => exact .wait (hothers.refl s) (ih s)

end Reaches

end Ends

end Deeplink.Task

import Deeplink.Task

/-!
# The work of tasks

How acts and tasks behave when they are put together. Everything that is proved of a dispatcher or
of the service goes through the equations of this module, not through the definitions.

- `Act.bind_of_ok`, `Act.bind_of_error`: one act after another.
- `Task.bind_assoc`, `Task.attempt_bind`: tasks as trees that can be regrouped.
- `Task.work_bind`: the work of one task after another: the first one up to its end or to its
  suspension, and then the second one, if the first one has settled.
- `Task.work_focus`: a task on a part of the state does the same work on that part.
- `Task.Prompt`: tasks that are never suspended; their work is their whole run.
-/

namespace Deeplink

/-! ## Acts -/

namespace Act

variable {σ τ α β γ : Type}

@[simp] theorem pure_apply (a : α) (s : σ) : (Pure.pure a : Act σ α) s = ⟨.ok a, s, []⟩ := rfl

@[simp] theorem focus_apply (part : τ → σ) (put : σ → τ → τ) (x : Act σ α) (t : τ) :
    (x.focus part put) t = ⟨(x (part t)).result, put (x (part t)).state t, (x (part t)).trace⟩ :=
  rfl

/-- An act that succeeds goes on from the state that it leaves, and what it emits stands first. -/
theorem bind_of_ok {x : Act σ α} {f : α → Act σ β} {s : σ} {a : α}
    (h : (x s).result = .ok a) :
    (x >>= f) s = ⟨(f a (x s).state).result, (f a (x s).state).state,
      (x s).trace ++ (f a (x s).state).trace⟩ := by
  show Act.bind x f s = _
  simp only [Act.bind, h]

/-- An act that fails goes no further, and keeps what it has done. -/
theorem bind_of_error {x : Act σ α} {f : α → Act σ β} {s : σ} {e : Failure}
    (h : (x s).result = .error e) :
    (x >>= f) s = ⟨.error e, (x s).state, (x s).trace⟩ := by
  show Act.bind x f s = _
  simp only [Act.bind, h]

@[simp] theorem pure_bind (a : α) (f : α → Act σ β) : (Pure.pure a >>= f) = f a := by
  funext s
  rw [bind_of_ok (x := Pure.pure a) (a := a) rfl]
  simp

/-- It does not matter how acts are grouped. -/
theorem bind_assoc (x : Act σ α) (f : α → Act σ β) (g : β → Act σ γ) :
    (x >>= f) >>= g = x >>= fun a => f a >>= g := by
  funext s
  cases hx : (x s).result with
  | error e =>
    have hf : (x >>= f) s = ⟨.error e, (x s).state, (x s).trace⟩ := bind_of_error hx
    rw [bind_of_error (e := e) (by rw [hf]), hf, bind_of_error hx]
  | ok a =>
    have hf := bind_of_ok (f := f) hx
    -- `f` decides on both sides whether `g` follows
    rw [bind_of_ok hx]
    cases ha : (f a (x s).state).result with
    | error e =>
      rw [bind_of_error (e := e) (by rw [hf, ha]), hf, bind_of_error ha]
    | ok b =>
      rw [bind_of_ok (x := x >>= f) (by rw [hf, ha]), hf, bind_of_ok ha, List.append_assoc]

end Act

/-! ## Tasks as trees -/

namespace Task

variable {σ τ α β γ : Type}

@[simp] theorem done_bind (a : α) (f : α → Task σ β) : (Task.done (.ok a)).bind f = f a := rfl

@[simp] theorem failed_bind (e : Failure) (f : α → Task σ β) :
    (Task.done (.error e)).bind f = .done (.error e) := rfl

@[simp] theorem pause_bind (next : Task σ α) (f : α → Task σ β) :
    (Task.pause next).bind f = .pause (next.bind f) := rfl

@[simp] theorem rest_bind (next : Task σ α) (f : α → Task σ β) :
    (Task.rest next).bind f = .rest (next.bind f) := rfl

@[simp] theorem wait_bind (gate : Text) (next : Task σ α) (f : α → Task σ β) :
    (Task.wait gate next).bind f = .wait gate (next.bind f) := rfl

/-- It does not matter how tasks are grouped; the induction goes down to the end of the first. -/
@[simp] theorem bind_assoc (t : Task σ α) (f : α → Task σ β) (g : β → Task σ γ) :
    (t.bind f).bind g = t.bind fun a => (f a).bind g := by
  induction t with
  | done r =>
    cases r with
    | ok a => rfl
    | error e => rfl
  | act change next ih => exact congrArg (Task.act change) (funext ih)
  | emit x next ih => exact congrArg (Task.emit x) ih
  | pause next ih => exact congrArg Task.pause ih
  | rest next ih => exact congrArg Task.rest ih
  | wait gate next ih => exact congrArg (Task.wait gate) ih

/-- To go on with nothing is no change. -/
theorem bind_done (t : Task σ α) : (t.bind fun a => .done (.ok a)) = t := by
  induction t with
  | done r =>
    cases r with
    | ok a => rfl
    | error e => rfl
  | act change next ih => exact congrArg (Task.act change) (funext ih)
  | emit x next ih => exact congrArg (Task.emit x) ih
  | pause next ih => exact congrArg Task.pause ih
  | rest next ih => exact congrArg Task.rest ih
  | wait gate next ih => exact congrArg (Task.wait gate) ih

/-- Catching the failures of two tasks in a row: those of the first one are caught at once. -/
theorem attempt_bind (t : Task σ α) (f : α → Task σ β) :
    (t.bind f).attempt = t.attempt.bind fun
      | .ok a => (f a).attempt
      | .error e => .done (.ok (.error e)) := by
  induction t with
  | done r =>
    cases r with
    | ok a => rfl
    | error e => rfl
  | act change next ih => exact congrArg (Task.act change) (funext ih)
  | emit x next ih => exact congrArg (Task.emit x) ih
  | pause next ih => exact congrArg Task.pause ih
  | rest next ih => exact congrArg Task.rest ih
  | wait gate next ih => exact congrArg (Task.wait gate) ih

/-- A task that never fails has nothing to be caught. -/
theorem attempt_attempt (t : Task σ α) :
    t.attempt.attempt = t.attempt.bind fun r => .done (.ok (.ok r)) := by
  induction t with
  | done r => rfl
  | act change next ih => exact congrArg (Task.act change) (funext ih)
  | emit x next ih => exact congrArg (Task.emit x) ih
  | pause next ih => exact congrArg Task.pause ih
  | rest next ih => exact congrArg Task.rest ih
  | wait gate next ih => exact congrArg (Task.wait gate) ih

/-- What follows a task that may have failed: more work, if it has not, and then what is done in any
case. -/
def caught (f : α → Task σ β) (g : Except Failure β → Task σ γ) : Except Failure α → Task σ γ
  | .ok a => (f a).attempt.bind g
  | .error e => g (.error e)

@[simp] theorem caught_ok (f : α → Task σ β) (g : Except Failure β → Task σ γ) (a : α) :
    caught f g (.ok a) = (f a).attempt.bind g := rfl

/-- Of two tasks one after the other, what is caught is a failure of the first, which skips the
second, or what becomes of the second. -/
theorem attempt_bind_bind (t : Task σ α) (f : α → Task σ β) (g : Except Failure β → Task σ γ) :
    (t.bind f).attempt.bind g = t.attempt.bind (caught f g) := by
  rw [attempt_bind, bind_assoc]
  congr 1
  funext x
  cases x with
  | ok a => rfl
  | error e => rfl

/-! ## Work -/

/-- Whether a task has settled. -/
def isDone : Task σ α → Bool
  | .done _ => true
  | _ => false

@[simp] theorem attempt_isDone (t : Task σ α) : t.attempt.isDone = t.isDone := by
  cases t <;> rfl

/-- A task that is over has a result. -/
theorem eq_done_of_isDone {t : Task σ α} (h : t.isDone = true) : ∃ r, t = .done r := by
  cases t with
  | done r => exact ⟨r, rfl⟩
  | _ => cases h

/-- How far a task may be taken after one that may have come to a gate. -/
def Reach.after (reach : Reach) (cameToGate : Bool) : Reach :=
  if reach = .gate ∧ cameToGate = true then .turn else reach

namespace Progress

/-- A progress, and what has happened before it. -/
def behind (trace : List Signal) (cameToGate : Bool) (p : Progress σ α) : Progress σ α :=
  { p with
    trace := trace ++ p.trace
    cameToGate := cameToGate || p.cameToGate }

@[simp] theorem behind_nothing (p : Progress σ α) : p.behind [] false = p := rfl

/-- The progress of a task that another one follows. -/
def andThen (isOpen : Text → Bool) (reach : Reach) (f : α → Task σ β) (p : Progress σ α) :
    Progress σ β :=
  match p.task with
  | .done (.ok a) =>
    ((f a).work isOpen (reach.after p.cameToGate) p.state).behind p.trace p.cameToGate
  | .done (.error e) => ⟨.done (.error e), p.state, p.trace, p.cameToGate⟩
  | t => ⟨t.bind f, p.state, p.trace, p.cameToGate⟩

end Progress

section Work

variable {isOpen : Text → Bool}

theorem Reach.after_false (reach : Reach) : reach.after false = reach := by
  rw [Reach.after, if_neg (by simp)]

/-- **The work of one task after another**: induction on the first one. Only an open gate changes
how far the second one is taken. -/
theorem work_bind (t : Task σ α) (f : α → Task σ β) (reach : Reach) (s : σ) :
    (t.bind f).work isOpen reach s = (t.work isOpen reach s).andThen isOpen reach f := by
  induction t generalizing reach s with
  | done r =>
    cases r with
    | ok a =>
      show (f a).work isOpen reach s = ((f a).work isOpen (reach.after false) s).behind [] false
      rw [Reach.after_false, Progress.behind_nothing]
    | error e => rfl
  | act change next ih => exact ih s reach (change s)
  | emit x next ih =>
    show { (next.bind f).work isOpen reach s with
      trace := x :: ((next.bind f).work isOpen reach s).trace } = _
    -- the signal comes first, whether the first task settles or not
    rw [ih]
    simp only [work, Progress.andThen]
    split <;> rfl
  | pause next ih =>
    simp only [pause_bind, work]
    split
    · rfl
    · exact ih reach s
  | rest next ih =>
    simp only [rest_bind, work]
    split
    · exact ih reach s
    · rfl
  | wait gate next ih =>
    simp only [wait_bind, work]
    split
    · rw [ih]
      -- behind an open gate the second task comes at most to the end of the turn
      have hreach : ∀ b, (if reach = .gate then Reach.turn else reach).after b
          = reach.after true := by
        intro b
        cases reach <;> cases b <;> rfl
      simp only [Progress.andThen, hreach]
      split <;> simp_all [Progress.behind]
    · rfl

/-- A suspended task with another one behind it goes on as it does alone. -/
theorem resume_bind {t : Task σ α} (ht : t.isDone = false) (f : α → Task σ β) (reach : Reach)
    (s : σ) :
    (t.bind f).resume isOpen reach s = (t.resume isOpen reach s).andThen isOpen reach f := by
  cases t with
  | done r => cases ht
  | act change next => exact work_bind (.act change next) f reach s
  | emit x next => exact work_bind (.emit x next) f reach s
  | pause next => exact work_bind next f reach s
  | rest next => exact work_bind next f reach s
  | wait gate next =>
    simp only [wait_bind, resume]
    split
    · exact work_bind next f reach s
    · rfl

/-- A failure that is caught is caught when the work is over. -/
theorem work_attempt (t : Task σ α) (reach : Reach) (s : σ) :
    t.attempt.work isOpen reach s =
      ⟨(t.work isOpen reach s).task.attempt, (t.work isOpen reach s).state,
        (t.work isOpen reach s).trace, (t.work isOpen reach s).cameToGate⟩ := by
  induction t generalizing reach s with
  | done r => rfl
  | act change next ih => exact ih s reach (change s)
  | emit x next ih =>
    show { next.attempt.work isOpen reach s with
      trace := x :: (next.attempt.work isOpen reach s).trace } = _
    rw [ih]
    rfl
  | pause next ih =>
    simp only [attempt, work]
    split
    · rfl
    · exact ih reach s
  | rest next ih =>
    simp only [attempt, work]
    split
    · exact ih reach s
    · rfl
  | wait gate next ih =>
    simp only [attempt, work]
    split
    · rw [ih]
    · rfl

/-- A task that goes on under an attempt goes as far as without one. -/
theorem resume_attempt {t : Task σ α} (ht : t.isDone = false) (reach : Reach) (s : σ) :
    t.attempt.resume isOpen reach s =
      ⟨(t.resume isOpen reach s).task.attempt, (t.resume isOpen reach s).state,
        (t.resume isOpen reach s).trace, (t.resume isOpen reach s).cameToGate⟩ := by
  cases t with
  | done r => cases ht
  | act change next => exact work_attempt (.act change next) reach s
  | emit x next => exact work_attempt (.emit x next) reach s
  | pause next => exact work_attempt next reach s
  | rest next => exact work_attempt next reach s
  | wait gate next =>
    simp only [attempt, resume]
    split
    · exact work_attempt next reach s
    · rfl

/-- What is emitted first is behind the rest. -/
theorem work_emitAll_bind (xs : List Signal) (t : Task σ α) (f : α → Task σ β) (reach : Reach)
    (s : σ) :
    ((emitAll xs t).bind f).work isOpen reach s
      = ((t.bind f).work isOpen reach s).behind xs false := by
  induction xs with
  | nil => rfl
  | cons x xs ih =>
    show { ((emitAll xs t).bind f).work isOpen reach s with
      trace := x :: (((emitAll xs t).bind f).work isOpen reach s).trace } = _
    rw [ih]
    rfl

/-- An act is done in one go, and a task behind it goes on from there unless the act fails. -/
theorem work_ofAct_bind (x : Act σ α) (f : α → Task σ β) (reach : Reach) (s : σ) :
    ((ofAct x).bind f).work isOpen reach s =
      match (x s).result with
      | .ok a => ((f a).work isOpen reach (x s).state).behind (x s).trace false
      | .error e => ⟨.done (.error e), (x s).state, (x s).trace, false⟩ := by
  show ((emitAll (x s).trace (.done (x s).result)).bind f).work isOpen reach (x s).state = _
  rw [work_emitAll_bind]
  cases (x s).result with
  | ok a => rfl
  | error e => simp [work, Progress.behind]

/-- The end of an act is known at once, whatever it is. -/
theorem work_ofAct_attempt_bind (x : Act σ α) (f : Except Failure α → Task σ β) (reach : Reach)
    (s : σ) :
    ((ofAct x).attempt.bind f).work isOpen reach s
      = ((f (x s).result).work isOpen reach (x s).state).behind (x s).trace false := by
  -- the failure can be caught within the act
  have hattempt : (ofAct x).attempt = ofAct x.attempt := by
    refine congrArg (Task.act _) (funext fun s => ?_)
    show (emitAll (x s).trace (.done (x s).result)).attempt
      = emitAll (x s).trace (.done (.ok (x s).result))
    induction (x s).trace with
    | nil => rfl
    | cons signal trace ih => exact congrArg (Task.emit signal) ih
  rw [hattempt, work_ofAct_bind]
  rfl

end Work

/-! ## Parts of the state -/

/-- A part of the state that can be put back. -/
structure IsPart (part : τ → σ) (put : σ → τ → τ) : Prop where
  part_put : ∀ s t, part (put s t) = s
  put_part : ∀ t, put (part t) t = t
  put_put : ∀ s s' t, put s (put s' t) = put s t

/-- A task on a part of the state works on that part and leaves the rest as it is. -/
theorem work_focus {part : τ → σ} {put : σ → τ → τ} (h : IsPart part put)
    (isOpen : Text → Bool) (u : Task σ α) (reach : Reach) (t : τ) :
    (u.focus part put).work isOpen reach t =
      ⟨(u.work isOpen reach (part t)).task.focus part put,
        put (u.work isOpen reach (part t)).state t,
        (u.work isOpen reach (part t)).trace,
        (u.work isOpen reach (part t)).cameToGate⟩ := by
  induction u generalizing reach t with
  | done r => simp [focus, work, h.put_part]
  | act change next ih =>
    show ((next (part t)).focus part put).work isOpen reach (put (change (part t)) t) = _
    rw [ih, h.part_put, h.put_put]
    rfl
  | emit x next ih =>
    show { (next.focus part put).work isOpen reach t with
      trace := x :: ((next.focus part put).work isOpen reach t).trace } = _
    rw [ih]
    rfl
  | pause next ih =>
    simp only [focus, work]
    split
    · simp [focus, h.put_part]
    · exact ih reach t
  | rest next ih =>
    simp only [focus, work]
    split
    · exact ih reach t
    · simp [focus, h.put_part]
  | wait gate next ih =>
    simp only [focus, work]
    split
    · rw [ih]
    · simp [focus, h.put_part]

@[simp] theorem focus_isDone (part : τ → σ) (put : σ → τ → τ) (u : Task σ α) :
    (u.focus part put).isDone = u.isDone := by
  cases u <;> rfl

/-- An act on a part of the state is one act. -/
theorem focus_ofAct (part : τ → σ) (put : σ → τ → τ) (x : Act σ α) :
    (ofAct x).focus part put = ofAct (x.focus part put) := by
  refine congrArg (Task.act _) (funext fun t => ?_)
  show (emitAll (x (part t)).trace (.done (x (part t)).result)).focus part put
    = emitAll (x (part t)).trace (.done (x (part t)).result)
  induction (x (part t)).trace with
  | nil => rfl
  | cons signal trace ih => exact congrArg (Task.emit signal) ih

/-- Work on a part, one task after the other, is one task after the other on that part. -/
theorem focus_bind (part : τ → σ) (put : σ → τ → τ) (u : Task σ α) (f : α → Task σ β) :
    (u.bind f).focus part put = (u.focus part put).bind fun a => (f a).focus part put := by
  induction u with
  | done r =>
    cases r with
    | ok a => rfl
    | error e => rfl
  | act change next ih => exact congrArg (Task.act _) (funext fun t => ih (part t))
  | emit x next ih => exact congrArg (Task.emit x) ih
  | pause next ih => exact congrArg Task.pause ih
  | rest next ih => exact congrArg Task.rest ih
  | wait gate next ih => exact congrArg (Task.wait gate) ih

/-- Failures of work on a part are caught as they are. -/
theorem focus_attempt (part : τ → σ) (put : σ → τ → τ) (u : Task σ α) :
    u.attempt.focus part put = (u.focus part put).attempt := by
  induction u with
  | done r => rfl
  | act change next ih => exact congrArg (Task.act _) (funext fun t => ih (part t))
  | emit x next ih => exact congrArg (Task.emit x) ih
  | pause next ih => exact congrArg Task.pause ih
  | rest next ih => exact congrArg Task.rest ih
  | wait gate next ih => exact congrArg (Task.wait gate) ih

/-- A part of a part is a part. -/
theorem focus_focus {ω : Type} (part : τ → σ) (put : σ → τ → τ) (part' : ω → τ)
    (put' : τ → ω → ω) (u : Task σ α) : (u.focus part put).focus part' put'
      = u.focus (fun t => part (part' t)) fun s t => put' (put s (part' t)) t := by
  induction u with
  | done r => rfl
  | act change next ih => exact congrArg (Task.act _) (funext fun t => ih (part (part' t)))
  | emit x next ih => exact congrArg (Task.emit x) ih
  | pause next ih => exact congrArg Task.pause ih
  | rest next ih => exact congrArg Task.rest ih
  | wait gate next ih => exact congrArg (Task.wait gate) ih

/-- A suspended task on a part of the state goes on with that part. -/
theorem resume_focus {part : τ → σ} {put : σ → τ → τ} (h : IsPart part put)
    (isOpen : Text → Bool) (u : Task σ α) (reach : Reach) (t : τ) :
    (u.focus part put).resume isOpen reach t =
      ⟨(u.resume isOpen reach (part t)).task.focus part put,
        put (u.resume isOpen reach (part t)).state t,
        (u.resume isOpen reach (part t)).trace,
        (u.resume isOpen reach (part t)).cameToGate⟩ := by
  cases u with
  | done r => exact work_focus h isOpen (.done r) reach t
  | act change next => exact work_focus h isOpen (.act change next) reach t
  | emit x next => exact work_focus h isOpen (.emit x next) reach t
  | pause next => exact work_focus h isOpen next reach t
  | rest next => exact work_focus h isOpen next reach t
  | wait gate next =>
    simp only [focus, resume]
    split
    · exact work_focus h isOpen next reach t
    · simp [focus, h.put_part]

/-! ## Tasks that are not suspended -/

/-- The run of a task that nothing holds up. -/
def whole : Task σ α → Act σ α
  | .done r => Act.ofExcept r
  | .act change next => fun s => (next s).whole (change s)
  | .emit x next => fun s =>
    ⟨(next.whole s).result, (next.whole s).state, x :: (next.whole s).trace⟩
  | .pause next => next.whole
  | .rest next => next.whole
  | .wait _ next => next.whole

/-- Whether a task is never suspended, whatever the state. -/
def Prompt : Task σ α → Prop
  | .done _ => True
  | .act _ next => ∀ s, (next s).Prompt
  | .emit _ next => next.Prompt
  | .pause _ | .rest _ | .wait _ _ => False

/-- What is not suspended runs to its end at once, however far it is taken. -/
theorem Prompt.work_eq {t : Task σ α} (h : t.Prompt) (isOpen : Text → Bool) (reach : Reach)
    (s : σ) :
    t.work isOpen reach s = ⟨.done (t.whole s).result, (t.whole s).state, (t.whole s).trace,
      false⟩ := by
  induction t generalizing s with
  | done r => rfl
  | act change next ih => exact ih s (h s) (change s)
  | emit x next ih =>
    show { next.work isOpen reach s with trace := x :: (next.work isOpen reach s).trace } = _
    rw [ih h s]
    rfl
  | pause next => exact h.elim
  | rest next => exact h.elim
  | wait gate next => exact h.elim

/-- Tasks that are never suspended are not suspended one after the other. -/
theorem Prompt.bind {t : Task σ α} {f : α → Task σ β} (ht : t.Prompt) (hf : ∀ a, (f a).Prompt) :
    (t.bind f).Prompt := by
  induction t with
  | done r =>
    cases r with
    | ok a => exact hf a
    | error e => trivial
  | act change next ih => exact fun s => ih s (ht s)
  | emit x next ih => exact ih ht
  | pause next => exact ht.elim
  | rest next => exact ht.elim
  | wait gate next => exact ht.elim

/-- An attempt is not suspended if what is attempted is not. -/
theorem Prompt.attempt {t : Task σ α} (ht : t.Prompt) : t.attempt.Prompt := by
  induction t with
  | done r => trivial
  | act change next ih => exact fun s => ih s (ht s)
  | emit x next ih => exact ih ht
  | pause next => exact ht.elim
  | rest next => exact ht.elim
  | wait gate next => exact ht.elim

/-- Neither way to go on is suspended, after a success and after a failure. -/
theorem Prompt.caught {f : α → Task σ β} {g : Except Failure β → Task σ γ}
    (hf : ∀ a, (f a).Prompt) (hg : ∀ x, (g x).Prompt) (x : Except Failure α) :
    (caught f g x).Prompt := by
  cases x with
  | ok a => exact (hf a).attempt.bind hg
  | error e => exact hg (.error e)

/-- An act is never suspended. -/
theorem Prompt.ofAct (x : Act σ α) : (ofAct x).Prompt := by
  have hshown : ∀ (xs : List Signal) (r : Except Failure α),
      (emitAll xs (.done r) : Task σ α).Prompt := by
    intro xs r
    induction xs with
    | nil => trivial
    | cons x xs ih => exact ih
  exact fun s => hshown _ _

/-- Work on a part is never suspended if it is not suspended by itself. -/
theorem Prompt.focus {part : τ → σ} {put : σ → τ → τ} {u : Task σ α} (hu : u.Prompt) :
    (u.focus part put).Prompt := by
  induction u with
  | done r => trivial
  | act change next ih => exact fun t => ih (part t) (hu (part t))
  | emit x next ih => exact ih hu
  | pause next => exact hu.elim
  | rest next => exact hu.elim
  | wait gate next => exact hu.elim

end Task

end Deeplink

import Deeplink.Proofs.Dispatch.Pending
import Deeplink.Proofs.Dispatch.Sequence
import Deeplink.Proofs.Task.Shown

/-!
# The records of a run

A run writes a record about each command that has been run, and one about the command that ends it.
Runners and safety checks write records as well, in between. Every rejection and every failure is
logged, and so is every success (specification, 4.2).

- `Dispatcher.ranRecord`, `Dispatcher.failureRecord`, `Dispatcher.refusalRecord`: the records.
- `Dispatcher.Recorded`: commands whose runners have returned, and all that has been shown by then.
- `Dispatcher.settlement`: the record of one command, if there is one.
- `Dispatcher.Trail`: how a run ends, how many commands have been completed, what the runner behind
  them has raised, the records of the run itself, and all that has been shown.
- `Dispatcher.run_shows_iff`: a run leaves such a trail, and every trail is that of a run.
-/

namespace Deeplink.Dispatcher

variable {ρ : Type}

/-! ## Records -/

/-- What is logged about a command that has been run. -/
def ranRecord (c : Command) (position : Nat) : Log.Notice :=
  { level := .debug
    source := .dispatch
    message := "Ran " ++ c.method ++ " `" ++ c.name ++ "`"
    context := context c position none }

/-- What is logged about a command whose runner has failed. -/
def failureRecord (c : Command) (position : Nat) (e : Failure) : Log.Notice :=
  { level := .error
    source := .dispatch
    message := (CommandError.Cause.execution c.name e.message).message
    context := context c position (some (CommandError.Cause.execution c.name e.message).code) }

/-- What is logged about a command that is refused. -/
def refusalRecord (c : Command) (position : Nat) (refusal : Refusal) : Log.Notice :=
  { level := .warning
    source := .dispatch
    message := (CommandError.Cause.rejected refusal).message
    context := context c position (some (CommandError.Cause.rejected refusal).code) }

/-- The records of commands that have been run, the first one at the position. -/
def ranRecords (position : Nat) (cs : List Command) : List Log.Notice :=
  cs.mapIdx fun i c => ranRecord c (position + i)

theorem ranRecords_cons (position : Nat) (c : Command) (cs : List Command) :
    ranRecords position (c :: cs) = ranRecord c position :: ranRecords (position + 1) cs := by
  simp only [ranRecords, List.mapIdx_cons, Nat.add_zero, Nat.add_assoc, Nat.add_comm 1]

theorem level_of_mem_ranRecords {position : Nat} {cs : List Command} {n : Log.Notice}
    (h : n ∈ ranRecords position cs) : n.level = .debug := by
  obtain ⟨i, hi, rfl⟩ := List.mem_mapIdx.mp h
  rfl

theorem filter_ranRecords (position : Nat) (cs : List Command) :
    (ranRecords position cs).filter (·.level = .debug) = ranRecords position cs :=
  List.filter_eq_self.mpr fun _ hn => decide_eq_true (level_of_mem_ranRecords hn)

/-- Which command has been run is in its record. -/
theorem eq_of_ranRecords_eq {position : Nat} {cs cs' : List Command}
    (h : ranRecords position cs = ranRecords position cs') :
    cs.map (fun c => (c.method, c.name)) = cs'.map fun c => (c.method, c.name) := by
  induction cs generalizing position cs' with
  | nil =>
    cases cs' with
    | nil => rfl
    | cons c' cs' =>
      rw [ranRecords_cons] at h
      cases h
  | cons c cs ih =>
    rw [ranRecords_cons] at h
    cases cs' with
    | nil => cases h
    | cons c' cs' =>
      rw [ranRecords_cons] at h
      obtain ⟨hc, hcs⟩ := List.cons.inj h
      have hcontext : context c position none = context c' position none :=
        congrArg Log.Notice.context hc
      have hmethod : some c.method = some c'.method := congrArg Log.Context.method hcontext
      have hname : some c.name = some c'.name := congrArg Log.Context.command hcontext
      rw [List.map_cons, List.map_cons, ih hcs, Option.some.inj hmethod, Option.some.inj hname]

/-- The records of dispatchers among signals. -/
def records (xs : List Signal) : List Log.Notice :=
  xs.filterMap fun
    | .notice n => if n.source = .dispatch then some n else none
    | _ => none

theorem records_append (xs ys : List Signal) : records (xs ++ ys) = records xs ++ records ys :=
  List.filterMap_append

theorem records_cons {n : Log.Notice} (h : n.source = .dispatch) (xs : List Signal) :
    records (.notice n :: xs) = n :: records xs :=
  List.filterMap_cons_some (if_pos h)

/-! ## One command -/

/-- What is recorded when a runner has settled; nothing if something escapes. -/
def settlement (c : Command) (position : Nat) : Except Failure Json → List Log.Notice
  | .ok _ => [ranRecord c position]
  | .error e =>
    match e.escaping? with
    | none => [failureRecord c position e]
    | some _ => []

section Runs

variable {d : Dispatcher ρ} {others : Desk ρ → Desk ρ → Prop} {cs : List Command}
  {desk desk' : Desk ρ} {xs : List Signal}

theorem settle_shows_iff {c : Command} {position : Nat} {r : Except Failure Json}
    {x : Except Failure Unit} : Task.Shows others (settle c position r) desk x desk' xs
      ↔ x = settled c position r ∧ desk' = desk ∧ xs = (settlement c position r).map .notice := by
  have hnotice {n : Log.Notice} {y : Except Failure Unit} :
      Task.Shows others (.emit (.notice n) (.done y)) desk x desk' xs
        ↔ x = y ∧ desk' = desk ∧ xs = [.notice n] := by
    constructor
    · rintro ⟨ys, rfl, rfl, rfl, rfl⟩
      exact ⟨rfl, rfl, rfl⟩
    · rintro ⟨rfl, rfl, rfl⟩
      exact ⟨[], rfl, rfl, rfl, rfl⟩
  cases r with
  | ok v => exact hnotice
  | error e =>
    cases he : e.escaping? with
    | none =>
      simp only [settle, settled, settlement, he]
      exact hnotice
    | some escaping =>
      simp only [settle, settled, settlement, he]
      exact Iff.rfl

/-- A command shows what its runner shows, and then its record. -/
theorem runAt_shows_iff {c : Command} (hc : d.knows c = true) {position : Nat}
    {x : Except Failure Unit} : Task.Shows others (d.runAt c position) desk x desk' xs
      ↔ ∃ r ys, Task.Shows others (d.runner c) desk r desk' ys ∧ x = settled c position r
        ∧ xs = ys ++ (settlement c position r).map .notice := by
  rw [runAt_of_knows hc, Task.Shows.attempt_bind_iff]
  simp only [settle_shows_iff]
  constructor
  · rintro ⟨r, desk₁, ys, _, hrunner, ⟨rfl, rfl, rfl⟩, rfl⟩
    exact ⟨r, ys, hrunner, rfl, rfl⟩
  · rintro ⟨r, ys, hrunner, rfl, rfl⟩
    exact ⟨r, desk', ys, _, hrunner, ⟨rfl, rfl, rfl⟩, rfl⟩

/-! ## Sequences -/

/-- The runners of the commands have returned, one after the other. What has been shown is, for each
of them, what it has shown itself, and behind it the record of the run. -/
inductive Recorded (d : Dispatcher ρ) (others : Desk ρ → Desk ρ → Prop) :
    Nat → List Command → Desk ρ → Desk ρ → List Signal → Prop where
  | nil (position : Nat) (desk : Desk ρ) : Recorded d others position [] desk desk []
  | cons {position : Nat} {c : Command} {cs : List Command} {v : Json} {desk desk₁ desk' : Desk ρ}
      {xs ys : List Signal} (h : Task.Shows others (d.runner c) desk (.ok v) desk₁ xs)
      (hrest : Recorded d others (position + 1) cs desk₁ desk' ys) :
      Recorded d others position (c :: cs) desk desk'
        (xs ++ .notice (ranRecord c position) :: ys)

/-- Without the signals, that is that they have returned. -/
theorem Recorded.returned {position : Nat} (h : Recorded d others position cs desk desk' xs) :
    Returned d others cs desk desk' := by
  induction h with
  | nil position desk => exact .nil desk
  | cons h _ ih => exact .cons h.ends ih

/-- A run that has passed commands goes on with the others. -/
theorem Recorded.runFrom_shows {before rest : List Command} {desk₁ : Desk ρ} {position : Nat}
    {ys zs : List Signal} {x : Except Failure Unit}
    (hbefore : Recorded d others position before desk desk₁ ys)
    (hknown : ∀ c ∈ before, d.knows c = true)
    (hrest : Task.Shows others (d.runFrom (position + before.length) rest) desk₁ x desk' zs) :
    Task.Shows others (d.runFrom position (before ++ rest)) desk x desk' (ys ++ zs) := by
  induction hbefore with
  | nil position desk => exact hrest
  | @cons position c before v desk desk₂ desk₁ xs ys hc _ ih =>
    obtain ⟨hcknown, hknown⟩ := List.forall_mem_cons.mp hknown
    -- one position more behind the command, one command less before it
    rw [List.length_cons, Nat.add_comm before.length, ← Nat.add_assoc] at hrest
    have hfirst : Task.Shows others (d.runAt c position) desk (.ok ()) desk₂
        (xs ++ [.notice (ranRecord c position)]) :=
      (runAt_shows_iff hcknown).mpr ⟨.ok v, xs, hc, rfl, rfl⟩
    refine Task.Shows.bind_iff.mpr (.inl ⟨(), desk₂, _, ys ++ zs, hfirst, ih hknown hrest, ?_⟩)
    simp

/-- **The runners of a sequence return one after the other, or one of them fails**, and what is
shown tells which. -/
theorem runFrom_shows_iff (hknown : ∀ c ∈ cs, d.knows c = true) {position : Nat}
    {x : Except Failure Unit} :
    Task.Shows others (d.runFrom position cs) desk x desk' xs
      ↔ (x = .ok () ∧ Recorded d others position cs desk desk' xs)
        ∨ ∃ before c after e desk₁ ys zs, cs = before ++ c :: after
          ∧ Recorded d others position before desk desk₁ ys
          ∧ Task.Shows others (d.runner c) desk₁ (.error e) desk' zs
          ∧ x = settled c (position + before.length) (.error e)
          ∧ xs = ys ++ (zs
            ++ (settlement c (position + before.length) (.error e)).map .notice) := by
  constructor
  · intro h
    induction cs generalizing position desk xs with
    | nil =>
      obtain ⟨rfl, rfl, rfl⟩ := h
      exact .inl ⟨rfl, .nil _ _⟩
    | cons c cs ih =>
      obtain ⟨hc, hknown⟩ := List.forall_mem_cons.mp hknown
      rcases Task.Shows.bind_iff.mp h with ⟨u, desk₁, ys, zs, hfirst, hrest, rfl⟩ | ⟨e, rfl, hfirst⟩
      · obtain ⟨r, ys, hrunner, hr, rfl⟩ := (runAt_shows_iff hc).mp hfirst
        cases r with
        | error e => cases hr
        | ok v =>
          rcases ih hknown hrest with ⟨rfl, hall⟩
            | ⟨before, c', after, e, desk₂, ys', zs', rfl, hbefore, hc', rfl, rfl⟩
          · refine .inl ⟨rfl, ?_⟩
            rw [List.append_assoc]
            exact .cons hrunner hall
          · refine .inr ⟨c :: before, c', after, e, desk₂, _, zs', rfl, .cons hrunner hbefore, hc',
              ?_, ?_⟩
            · rw [List.length_cons, Nat.add_comm before.length, ← Nat.add_assoc]
            · rw [List.length_cons, Nat.add_comm before.length, ← Nat.add_assoc]
              simp [settlement]
      · obtain ⟨r, ys, hrunner, hr, rfl⟩ := (runAt_shows_iff hc).mp hfirst
        cases r with
        | ok v => cases hr
        | error e' => exact .inr ⟨[], c, cs, e', desk, [], ys, rfl, .nil _ _, hrunner, hr, rfl⟩
  · rintro (⟨rfl, hall⟩ | ⟨before, c, after, e, desk₁, ys, zs, rfl, hbefore, hc, rfl, rfl⟩)
    · have hrest : Task.Shows others (d.runFrom (position + cs.length) []) desk' (.ok ()) desk'
          [] := ⟨rfl, rfl, rfl⟩
      have hrun := hall.runFrom_shows hknown hrest
      rwa [List.append_nil, List.append_nil] at hrun
    · obtain ⟨hbeforeKnown, hrestKnown⟩ := List.forall_mem_append.mp hknown
      refine hbefore.runFrom_shows hbeforeKnown (Task.Shows.bind_iff.mpr (.inr ?_))
      have hstop : Task.Shows others (d.runAt c (position + before.length)) desk₁
          (settled c (position + before.length) (.error e)) desk' _ :=
        (runAt_shows_iff (hrestKnown c List.mem_cons_self)).mpr ⟨.error e, zs, hc, rfl, rfl⟩
      exact ⟨_, rfl, hstop⟩

/-! ## Trails -/

/-- How a sequence of commands that is given to a desk ends: how many commands are completed, what
the runner of the next one has raised if it has failed, the result, the desk that is left, the
records of the run itself, and all that has been shown. -/
inductive Trail (d : Dispatcher ρ) (others : Desk ρ → Desk ρ → Prop) (cs : List Command)
    (desk : Desk ρ) : Nat → Option Failure → Except Failure Nat → Desk ρ → List Log.Notice →
      List Signal → Prop where
  /-- The sequence is refused because of a command. -/
  | refused {before : List Command} {c : Command} {after : List Command} {refusal : Refusal}
      (hcs : cs = before ++ c :: after) (hbefore : d.Grants before desk.host)
      (hc : refusal? c (d.ask c (d.asked before desk.host)).result = some refusal) :
      Trail d others cs desk 0 none (.error (rejection c before.length refusal))
        ⟨desk.pending, d.asked (before ++ [c]) desk.host⟩ [refusalRecord c before.length refusal]
        (d.heard (before ++ [c]) desk.host
          ++ [.notice (refusalRecord c before.length refusal)])
  /-- A safety check fails itself. That is not recorded. -/
  | unanswered {before : List Command} {c : Command} {after : List Command} {e : Failure}
      (hcs : cs = before ++ c :: after) (hbefore : d.Grants before desk.host)
      (hc : (d.ask c (d.asked before desk.host)).result = .error e) :
      Trail d others cs desk 0 none (.error e) ⟨desk.pending, d.asked (before ++ [c]) desk.host⟩ []
        (d.heard (before ++ [c]) desk.host)
  /-- All commands are completed. -/
  | completed {desk' : Desk ρ} {xs : List Signal} (hgrants : d.Grants cs desk.host)
      (hall : Recorded d others 0 cs ⟨desk.pending, d.asked cs desk.host⟩ desk' xs) :
      Trail d others cs desk cs.length none (.ok cs.length) desk' (ranRecords 0 cs)
        (d.heard cs desk.host ++ xs)
  /-- A runner fails, and those before it are completed. -/
  | failed {before : List Command} {c : Command} {after : List Command} {e failure : Failure}
      {desk₁ desk' : Desk ρ} {xs ys : List Signal} (hgrants : d.Grants cs desk.host)
      (hcs : cs = before ++ c :: after)
      (hbefore : Recorded d others 0 before ⟨desk.pending, d.asked cs desk.host⟩ desk₁ xs)
      (hc : Task.Shows others (d.runner c) desk₁ (.error e) desk' ys) (he : e.escaping? = none)
      (hfailure : Wraps c before.length e failure) :
      Trail d others cs desk before.length (some e) (.error failure) desk'
        (ranRecords 0 before ++ [failureRecord c before.length e])
        (d.heard cs desk.host ++ (xs ++ (ys ++ [.notice (failureRecord c before.length e)])))
  /-- A runner fails and something escapes: what it has raised is not caught, or it has no text.
  That is not recorded either. -/
  | escaped {before : List Command} {c : Command} {after : List Command} {e escaping : Failure}
      {desk₁ desk' : Desk ρ} {xs ys : List Signal} (hgrants : d.Grants cs desk.host)
      (hcs : cs = before ++ c :: after)
      (hbefore : Recorded d others 0 before ⟨desk.pending, d.asked cs desk.host⟩ desk₁ xs)
      (hc : Task.Shows others (d.runner c) desk₁ (.error e) desk' ys)
      (he : e.escaping? = some escaping) :
      Trail d others cs desk before.length (some e) (.error escaping) desk' (ranRecords 0 before)
        (d.heard cs desk.host ++ (xs ++ ys))

/-- What a run shows whose validation has failed. -/
theorem run_shows_of_stopped {e : Failure} {left : ρ} {ys : List Signal} {r : Except Failure Nat}
    (h : d.validate cs desk.host = ⟨.error e, left, ys⟩) :
    Task.Shows others (d.run cs) desk r desk' xs
      ↔ r = .error e ∧ desk' = ⟨desk.pending, left⟩ ∧ xs = ys := by
  have hact : Desk.onHost (d.validate cs) desk = ⟨.error e, ⟨desk.pending, left⟩, ys⟩ := by
    rw [Desk.onHost, Act.focus_apply, h]
  refine Task.Shows.ofAct_bind_iff.trans ?_
  rw [hact]
  constructor
  · rintro (⟨_, _, ⟨⟩, -⟩ | ⟨_, rfl, ⟨⟩⟩)
    exact ⟨rfl, rfl, rfl⟩
  · rintro ⟨rfl, rfl, rfl⟩
    exact .inr ⟨e, rfl, rfl⟩

/-- What a run shows that has passed validation. -/
theorem run_shows_of_grants {r : Except Failure Nat} (h : d.Grants cs desk.host) :
    Task.Shows others (d.run cs) desk r desk' xs
      ↔ ∃ x zs, Task.Shows others (d.runFrom 0 cs) ⟨desk.pending, d.asked cs desk.host⟩ x desk' zs
        ∧ r = x.map (fun _ => cs.length) ∧ xs = d.heard cs desk.host ++ zs := by
  have hact : Desk.onHost (d.validate cs) desk
      = ⟨.ok (), ⟨desk.pending, d.asked cs desk.host⟩, d.heard cs desk.host⟩ := by
    rw [Desk.onHost, Act.focus_apply, validate_of_grants h]
  refine Task.Shows.ofAct_bind_iff.trans ?_
  rw [hact]
  constructor
  · rintro (⟨u, zs, -, hrun, rfl⟩ | ⟨_, -, ⟨⟩⟩)
    rcases Task.Shows.bind_iff.mp hrun with ⟨u, desk₁, zs, _, hfrom, ⟨rfl, rfl, rfl⟩, rfl⟩
      | ⟨e, rfl, hfrom⟩
    · exact ⟨.ok (), zs, hfrom, rfl, by rw [List.append_nil]⟩
    · exact ⟨.error e, zs, hfrom, rfl, rfl⟩
  · rintro ⟨x, zs, hrun, rfl, rfl⟩
    refine .inl ⟨(), zs, rfl, Task.Shows.bind_iff.mpr ?_, rfl⟩
    cases x with
    | ok u => exact .inl ⟨u, desk', zs, [], hrun, ⟨rfl, rfl, rfl⟩, (List.append_nil _).symm⟩
    | error e => exact .inr ⟨e, rfl, hrun⟩

/-- **A run leaves a trail, and every trail is that of a run.** -/
theorem run_shows_iff {r : Except Failure Nat} : Task.Shows others (d.run cs) desk r desk' xs
    ↔ ∃ k stop own, Trail d others cs desk k stop r desk' own xs := by
  constructor
  · intro h
    rcases d.grants_or_first cs desk.host with hgrants | ⟨before, c, after, rfl, hbefore, hc⟩
    · obtain ⟨x, zs, hrun, rfl, rfl⟩ := (run_shows_of_grants hgrants).mp h
      rcases (runFrom_shows_iff (knows_of_grants hgrants)).mp hrun with ⟨rfl, hall⟩
        | ⟨before, c, after, e, desk₁, ys, zs, hcs, hbefore, hc, rfl, rfl⟩
      · exact ⟨_, _, _, .completed hgrants hall⟩
      · rw [Nat.zero_add]
        cases he : e.escaping? with
        | none =>
          simp only [settled, settlement, he]
          exact ⟨_, _, _, .failed hgrants hcs hbefore hc he ⟨rfl, rfl, rfl⟩⟩
        | some escaping =>
          simp only [settled, settlement, he, List.map_nil, List.append_nil]
          exact ⟨_, _, _, .escaped hgrants hcs hbefore hc he⟩
    · rcases refused_or_raised hc with ⟨refusal, hrefusal⟩ | ⟨e, he⟩
      · obtain ⟨rfl, rfl, rfl⟩ :=
          (run_shows_of_stopped (validate_of_refused hbefore hrefusal after)).mp h
        exact ⟨_, _, _, .refused rfl hbefore hrefusal⟩
      · obtain ⟨rfl, rfl, rfl⟩ := (run_shows_of_stopped (validate_of_raised hbefore he after)).mp h
        exact ⟨_, _, _, .unanswered rfl hbefore he⟩
  · rintro ⟨k, stop, own, htrail⟩
    cases htrail with
    | @refused before c after refusal hcs hbefore hc =>
      subst hcs
      exact (run_shows_of_stopped (validate_of_refused hbefore hc after)).mpr ⟨rfl, rfl, rfl⟩
    | @unanswered before c after e hcs hbefore hc =>
      subst hcs
      exact (run_shows_of_stopped (validate_of_raised hbefore hc after)).mpr ⟨rfl, rfl, rfl⟩
    | completed hgrants hall =>
      exact (run_shows_of_grants hgrants).mpr
        ⟨.ok (), _, (runFrom_shows_iff (knows_of_grants hgrants)).mpr (.inl ⟨rfl, hall⟩), rfl, rfl⟩
    | @failed before c after e failure desk₁ _ ys zs hgrants hcs hbefore hc he hfailure =>
      have hrun := (runFrom_shows_iff (knows_of_grants hgrants)).mpr
        (.inr ⟨before, c, after, e, desk₁, ys, zs, hcs, hbefore, hc, rfl, rfl⟩)
      rw [Nat.zero_add, (settled_eq_iff he).mpr hfailure, settlement, he] at hrun
      exact (run_shows_of_grants hgrants).mpr ⟨_, _, hrun, rfl, rfl⟩
    | @escaped before c after e escaping desk₁ _ ys zs hgrants hcs hbefore hc he =>
      have hrun := (runFrom_shows_iff (knows_of_grants hgrants)).mpr
        (.inr ⟨before, c, after, e, desk₁, ys, zs, hcs, hbefore, hc, rfl, rfl⟩)
      simp only [Nat.zero_add, settled, settlement, he, List.map_nil, List.append_nil] at hrun
      exact (run_shows_of_grants hgrants).mpr ⟨_, _, hrun, rfl, rfl⟩

end Runs

end Deeplink.Dispatcher

import Deeplink.Proofs.Dispatch.Watched

/-!
# All or nothing

A sequence of commands is validated as a whole before any of them runs. The families are asked about
the commands in order, and what a family answers may depend on everything that was asked before. The
whole sequence is scanned before any runner is called (specification, 4.2), and a command is run
only if it was known and safe when it was (3).

- `Dispatcher.ask`: what is asked about one command.
- `Dispatcher.Grants`: every command of a sequence is granted when it is asked about.
- `Dispatcher.validateFrom_append`: validation passes over what is granted, and stops at the first
  command that is not.
- `Dispatcher.AllOrNothing`: a run asks about its commands up to the first one that is not granted,
  and starts no runner unless there is none.
- `Dispatcher.run_all_or_nothing`: this holds of all ways to run commands.
-/

namespace Deeplink.Dispatcher

variable {ρ : Type}

/-! ## Asking -/

/-- Asks whether a command may run; nobody can answer if its method has no family. -/
def ask (d : Dispatcher ρ) (c : Command) : Act ρ (Option Bool) :=
  match d.table.lookup c.method with
  | none => pure none
  | some family => do return some (← family.isSafe c.name)

/-- Why a command is refused, if the answer refuses it. -/
def refusal? (c : Command) : Except Failure (Option Bool) → Option Refusal
  | .ok none => some (.noFamily c.name)
  | .ok (some false) => some (.notSafe c.name)
  | _ => none

/-- The host after it has been asked about commands, one after the other. -/
def asked (d : Dispatcher ρ) (cs : List Command) (s : ρ) : ρ :=
  cs.foldl (fun s c => (d.ask c s).state) s

/-- What has been shown while it was asked. -/
def heard (d : Dispatcher ρ) : List Command → ρ → List Signal
  | [], _ => []
  | c :: cs, s => (d.ask c s).trace ++ d.heard cs (d.ask c s).state

/-- Each command has a family, and its family says that it may run. -/
def Grants (d : Dispatcher ρ) : List Command → ρ → Prop
  | [], _ => True
  | c :: cs, s => (d.ask c s).result = .ok (some true) ∧ d.Grants cs (d.ask c s).state

/-- The safety checks of those commands whose methods have families. -/
def checks (d : Dispatcher ρ) (cs : List Command) : List Call := (cs.filter d.knows).map Call.check

/-- Without a family nobody is asked. -/
theorem ask_of_lookup_none {d : Dispatcher ρ} {c : Command}
    (h : d.table.lookup c.method = none) (s : ρ) : d.ask c s = ⟨.ok none, s, []⟩ := by
  rw [ask, h]
  rfl

/-- A family is asked about the name of the command, and about nothing else. -/
theorem ask_of_lookup {d : Dispatcher ρ} {c : Command} {family : Family ρ}
    (h : d.table.lookup c.method = some family) (s : ρ) :
    d.ask c s = ⟨(family.isSafe c.name s).result.map some, (family.isSafe c.name s).state,
      (family.isSafe c.name s).trace⟩ := by
  rw [ask, h]
  show (family.isSafe c.name >>= fun isSafe => pure (some isSafe)) s = _
  cases hr : (family.isSafe c.name s).result with
  | error e => exact Act.bind_of_error hr
  | ok isSafe =>
    rw [Act.bind_of_ok hr]
    simp [Except.map]

theorem asked_append (d : Dispatcher ρ) (before after : List Command) (s : ρ) :
    d.asked (before ++ after) s = d.asked after (d.asked before s) :=
  List.foldl_append

/-- What is heard of the checks of some commands stands in their order. -/
theorem heard_append (d : Dispatcher ρ) (before after : List Command) (s : ρ) :
    d.heard (before ++ after) s = d.heard before s ++ d.heard after (d.asked before s) := by
  induction before generalizing s with
  | nil => rfl
  | cons c before ih =>
    show (d.ask c s).trace ++ d.heard (before ++ after) (d.ask c s).state = _
    rw [ih, ← List.append_assoc]
    rfl

/-- Either every command is granted, or there is a first one that is not. -/
theorem grants_or_first (d : Dispatcher ρ) (cs : List Command) (s : ρ) :
    d.Grants cs s ∨ ∃ before c after, cs = before ++ c :: after ∧ d.Grants before s
      ∧ (d.ask c (d.asked before s)).result ≠ .ok (some true) := by
  induction cs generalizing s with
  | nil => exact .inl trivial
  | cons c cs ih =>
    by_cases hc : (d.ask c s).result = .ok (some true)
    · rcases ih (d.ask c s).state with hcs | ⟨before, c', after, rfl, hbefore, hc'⟩
      · exact .inl ⟨hc, hcs⟩
      · exact .inr ⟨c :: before, c', after, rfl, ⟨hc, hbefore⟩, hc'⟩
    · exact .inr ⟨[], c, cs, rfl, trivial, hc⟩

/-- What is granted has a family. -/
theorem knows_of_granted {d : Dispatcher ρ} {c : Command} {s : ρ}
    (h : (d.ask c s).result = .ok (some true)) : d.knows c = true := by
  unfold knows
  cases hf : d.table.lookup c.method with
  | none =>
    rw [ask_of_lookup_none hf] at h
    cases h
  | some family => rfl

/-- Commands that are granted have families. -/
theorem knows_of_grants {d : Dispatcher ρ} {cs : List Command} {s : ρ} (h : d.Grants cs s) :
    ∀ c ∈ cs, d.knows c = true := by
  induction cs generalizing s with
  | nil => exact fun _ hc => nomatch hc
  | cons c cs ih =>
    intro c' hc'
    rcases List.mem_cons.mp hc' with rfl | hc'
    · exact knows_of_granted h.1
    · exact ih h.2 c' hc'

/-- Each of them has been asked about once. -/
theorem checks_of_grants {d : Dispatcher ρ} {cs : List Command} {s : ρ} (h : d.Grants cs s) :
    d.checks cs = cs.map Call.check := by
  rw [checks, List.filter_eq_self.mpr (knows_of_grants h)]

/-! ## Validation -/

/-- What is logged about a refusal. -/
def refusalNotice (c : Command) (position : Nat) (refusal : Refusal) : Signal :=
  .notice {
    level := .warning
    source := .dispatch
    message := (CommandError.Cause.rejected refusal).message
    context := context c position (some (CommandError.Cause.rejected refusal).code) }

/-- The failure that a refusal is. -/
def rejection (c : Command) (position : Nat) (refusal : Refusal) : Failure :=
  Failure.ofCommand (.rejected refusal) (place c position)

/-- A check asks, and refuses what has no family or is not safe. -/
theorem check_eq (d : Dispatcher ρ) (c : Command) (position : Nat) :
    d.check c position = d.ask c >>= fun
      | some true => pure ()
      | some false => refuse c position (.notSafe c.name)
      | none => refuse c position (.noFamily c.name) := by
  unfold check ask
  cases d.table.lookup c.method with
  | none => exact (Act.pure_bind _ _).symm
  | some family =>
    show (family.isSafe c.name >>= fun isSafe =>
        if isSafe = true then pure () else refuse c position (.notSafe c.name))
      = (family.isSafe c.name >>= fun isSafe => pure (some isSafe)) >>= _
    rw [Act.bind_assoc]
    congr 1
    funext isSafe
    rw [Act.pure_bind]
    cases isSafe with
    | true => rfl
    | false => rfl

/-- A command that is granted passes its check. -/
theorem check_of_granted {d : Dispatcher ρ} {c : Command} {s : ρ} (position : Nat)
    (h : (d.ask c s).result = .ok (some true)) :
    d.check c position s = ⟨.ok (), (d.ask c s).state, (d.ask c s).trace⟩ := by
  rw [check_eq, Act.bind_of_ok h]
  simp

/-- A command that is refused is noted and rejected at its position. -/
theorem check_of_refused {d : Dispatcher ρ} {c : Command} {s : ρ} {refusal : Refusal}
    (position : Nat) (h : refusal? c (d.ask c s).result = some refusal) :
    d.check c position s = ⟨.error (rejection c position refusal), (d.ask c s).state,
      (d.ask c s).trace ++ [refusalNotice c position refusal]⟩ := by
  rw [check_eq]
  cases hr : (d.ask c s).result with
  | error e =>
    rw [hr] at h
    cases h
  | ok answer =>
    rw [hr] at h
    rw [Act.bind_of_ok hr]
    cases answer with
    | none =>
      cases h
      rfl
    | some isSafe =>
      cases isSafe with
      | true => cases h
      | false =>
        cases h
        rfl

/-- A check that fails by itself is neither noted nor wrapped. -/
theorem check_of_raised {d : Dispatcher ρ} {c : Command} {s : ρ} {e : Failure} (position : Nat)
    (h : (d.ask c s).result = .error e) :
    d.check c position s = ⟨.error e, (d.ask c s).state, (d.ask c s).trace⟩ := by
  rw [check_eq, Act.bind_of_error h]

/-- **Validation passes over what is granted** and goes on behind it. -/
theorem validateFrom_append {d : Dispatcher ρ} {before : List Command} {s : ρ}
    (h : d.Grants before s) (position : Nat) (rest : List Command) :
    d.validateFrom position (before ++ rest) s =
      { d.validateFrom (position + before.length) rest (d.asked before s) with
        trace := d.heard before s
          ++ (d.validateFrom (position + before.length) rest (d.asked before s)).trace } := by
  induction before generalizing s position with
  | nil => rfl
  | cons c before ih =>
    have hc := check_of_granted position h.1
    show (d.check c position >>= fun _ => d.validateFrom (position + 1) (before ++ rest)) s = _
    -- one more position behind the command, one command less before it
    rw [Act.bind_of_ok (a := ()) (by rw [hc]), hc, ih h.2]
    simp only [List.length_cons, Nat.add_assoc, Nat.add_comm before.length 1, heard,
      List.append_assoc, asked, List.foldl_cons]

/-- If all commands are granted, a validation asks about one after the other and passes. -/
theorem validate_of_grants {d : Dispatcher ρ} {cs : List Command} {s : ρ} (h : d.Grants cs s) :
    d.validate cs s = ⟨.ok (), d.asked cs s, d.heard cs s⟩ := by
  have happend := validateFrom_append h 0 []
  rw [List.append_nil] at happend
  rw [validate, happend]
  simp [validateFrom]

/-- Validation ends at a command whose check fails, in the state that the check leaves. -/
theorem validate_of_stopped {d : Dispatcher ρ} {before after : List Command} {c : Command} {s : ρ}
    {e : Failure} {xs : List Signal} (h : d.Grants before s)
    (hc : d.check c before.length (d.asked before s) = ⟨.error e,
      (d.ask c (d.asked before s)).state, (d.ask c (d.asked before s)).trace ++ xs⟩) :
    d.validate (before ++ c :: after) s =
      ⟨.error e, d.asked (before ++ [c]) s, d.heard (before ++ [c]) s ++ xs⟩ := by
  have hrest : d.validateFrom before.length (c :: after) (d.asked before s) = ⟨.error e,
      (d.ask c (d.asked before s)).state, (d.ask c (d.asked before s)).trace ++ xs⟩ := by
    show (d.check c before.length >>= fun _ => d.validateFrom (before.length + 1) after)
      (d.asked before s) = _
    rw [Act.bind_of_error (e := e) (by rw [hc]), hc]
  rw [validate, validateFrom_append h, Nat.zero_add, hrest, asked_append, heard_append,
    List.append_assoc]
  simp [asked, heard]

/-- A validation stops at the first refusal. -/
theorem validate_of_refused {d : Dispatcher ρ} {before : List Command} {c : Command} {s : ρ}
    {refusal : Refusal} (h : d.Grants before s)
    (hc : refusal? c (d.ask c (d.asked before s)).result = some refusal) (after : List Command) :
    d.validate (before ++ c :: after) s = ⟨.error (rejection c before.length refusal),
      d.asked (before ++ [c]) s,
      d.heard (before ++ [c]) s ++ [refusalNotice c before.length refusal]⟩ :=
  validate_of_stopped h (check_of_refused before.length hc)

/-- A validation stops at the first check that fails. -/
theorem validate_of_raised {d : Dispatcher ρ} {before : List Command} {c : Command} {s : ρ}
    {e : Failure} (h : d.Grants before s)
    (hc : (d.ask c (d.asked before s)).result = .error e) (after : List Command) :
    d.validate (before ++ c :: after) s = ⟨.error e, d.asked (before ++ [c]) s,
      d.heard (before ++ [c]) s⟩ := by
  have hcheck := check_of_raised before.length hc
  rw [← List.append_nil (d.ask c _).trace] at hcheck
  rw [validate_of_stopped h hcheck, List.append_nil]

/-! ## Asking while it is watched -/

/-- The one check that asking about a command makes is noted before the family is asked. -/
theorem watched_ask (d : Dispatcher ρ) (c : Command) (w : Watched ρ) :
    d.watched.ask c w = ⟨(d.ask c w.host).result,
      ⟨(d.ask c w.host).state, w.calls ++ d.checks [c]⟩, (d.ask c w.host).trace⟩ := by
  unfold checks
  cases hf : d.table.lookup c.method with
  | none =>
    have hknows : d.knows c = false := by rw [knows, hf]; rfl
    have hwatched : d.watched.table.lookup c.method = none := by
      rw [watched_lookup, hf]
      rfl
    rw [List.filter_cons_of_neg (by simp [hknows]), ask_of_lookup_none hwatched,
      ask_of_lookup_none hf]
    simp
  | some family =>
    have hknows : d.knows c = true := by rw [knows, hf]; rfl
    -- the note is the first thing that the watched family does
    rw [List.filter_cons_of_pos hknows]
    have hwatched : d.watched.table.lookup c.method = some (family.watched c.method) := by
      rw [watched_lookup, hf]
      rfl
    rw [ask_of_lookup hwatched, ask_of_lookup hf]
    rfl

theorem checks_cons (d : Dispatcher ρ) (c : Command) (cs : List Command) :
    d.checks (c :: cs) = d.checks [c] ++ d.checks cs := by
  rw [checks, ← List.singleton_append, List.filter_append, List.map_append]
  rfl

/-- To watch the families adds their checks to what is written down, and changes no answer. -/
theorem watched_asked (d : Dispatcher ρ) (cs : List Command) (w : Watched ρ) :
    d.watched.asked cs w = ⟨d.asked cs w.host, w.calls ++ d.checks cs⟩ := by
  induction cs generalizing w with
  | nil =>
    rw [checks, List.filter_nil, List.map_nil, List.append_nil]
    rfl
  | cons c cs ih =>
    show d.watched.asked cs (d.watched.ask c w).state = _
    rw [ih, watched_ask, checks_cons d c cs, List.append_assoc]
    rfl

theorem watched_ask_asked (d : Dispatcher ρ) (before : List Command) (c : Command)
    (w : Watched ρ) :
    (d.watched.ask c (d.watched.asked before w)).result
      = (d.ask c (d.asked before w.host)).result := by
  rw [watched_ask, watched_asked]

theorem watched_heard (d : Dispatcher ρ) (cs : List Command) (w : Watched ρ) :
    d.watched.heard cs w = d.heard cs w.host := by
  induction cs generalizing w with
  | nil => rfl
  | cons c cs ih =>
    show (d.watched.ask c w).trace ++ d.watched.heard cs (d.watched.ask c w).state = _
    rw [ih, watched_ask]
    rfl

/-- Watched or not, a dispatcher grants the same commands. -/
theorem watched_grants (d : Dispatcher ρ) (cs : List Command) (w : Watched ρ) :
    d.watched.Grants cs w ↔ d.Grants cs w.host := by
  induction cs generalizing w with
  | nil => exact Iff.rfl
  | cons c cs ih =>
    show (d.watched.ask c w).result = _ ∧ d.watched.Grants cs (d.watched.ask c w).state ↔ _
    rw [ih, watched_ask]
    rfl

/-! ## Running -/

/-- All further calls are those of runners. -/
def OnlyRuns (desk desk' : Desk (Watched ρ)) : Prop :=
  ∃ calls, desk'.host.calls = desk.host.calls ++ calls ∧ ∀ call ∈ calls, call.isCheck = false

theorem OnlyRuns.of_eq {desk desk' : Desk (Watched ρ)}
    (h : desk'.host.calls = desk.host.calls) : OnlyRuns desk desk' :=
  ⟨[], by rw [h, List.append_nil], fun _ hcall => nomatch hcall⟩

theorem OnlyRuns.isPreorder : IsPreorder (OnlyRuns (ρ := ρ)) where
  refl _ := .of_eq rfl
  trans := by
    rintro desk desk' desk'' ⟨calls, hcalls, hruns⟩ ⟨calls', hcalls', hruns'⟩
    refine ⟨calls ++ calls', by rw [hcalls', hcalls, List.append_assoc], fun call hcall => ?_⟩
    rcases List.mem_append.mp hcall with hcall | hcall
    · exact hruns call hcall
    · exact hruns' call hcall

/-- A runner cannot reach the notes about its calls. -/
theorem watched_run_keeps (f : Family ρ) (method name : Text) (args : Args) :
    ((f.watched method).run name args).Keeps OnlyRuns := by
  refine .bind (.modify fun desk => ?_) fun _ => .bind (.attempt ?_) fun r desk => ⟨?_, trivial⟩
  · exact ⟨[.started method name args], rfl, by simp [Call.isCheck]⟩
  · exact .focus (.of_forall (R := fun _ _ => True) _ fun _ _ => trivial)
      fun _ _ _ => .of_eq rfl
  · exact ⟨[.settled method name], rfl, by simp [Call.isCheck]⟩

/-- What the families of a dispatcher keep, its runners keep; without a family nothing is done. -/
theorem runner_keeps {d : Dispatcher ρ} {R : Desk ρ → Desk ρ → Prop}
    (h : ∀ method family, d.table.lookup method = some family →
      ∀ name args, (family.run name args).Keeps R) (c : Command) : (d.runner c).Keeps R := by
  unfold runner
  cases hlookup : d.table.lookup c.method with
  | none => trivial
  | some family => exact h c.method family hlookup c.name c.args

/-- A runner asks no check, and only its own call is written down. -/
theorem watched_runner_keeps (d : Dispatcher ρ) (c : Command) :
    (d.watched.runner c).Keeps OnlyRuns := by
  refine runner_keeps (fun method family hfamily name args => ?_) c
  rw [watched_lookup, Option.map_eq_some_iff] at hfamily
  obtain ⟨family, -, rfl⟩ := hfamily
  exact watched_run_keeps family method name args

/-- Settling a command only shows something. -/
theorem settle_keeps {R : Desk ρ → Desk ρ → Prop} (c : Command) (position : Nat)
    (r : Except Failure Json) : (settle c position r).Keeps R :=
  settle_cases c position r (fun _ => trivial) trivial

/-- What the runner of a command keeps, running the command keeps. -/
theorem runAt_keeps {d : Dispatcher ρ} {R : Desk ρ → Desk ρ → Prop} {c : Command}
    (h : (d.runner c).Keeps R) (position : Nat) : (d.runAt c position).Keeps R :=
  runAt_cases d c position (.bind h.attempt (settle_keeps c position)) trivial

/-- What the runners of the commands keep, running the commands keeps. -/
theorem runFrom_keeps {d : Dispatcher ρ} {R : Desk ρ → Desk ρ → Prop}
    (h : ∀ c, (d.runner c).Keeps R) (position : Nat) (cs : List Command) :
    (d.runFrom position cs).Keeps R := by
  induction cs generalizing position with
  | nil => trivial
  | cons c cs ih => exact .bind (runAt_keeps (h c) position) fun _ => ih (position + 1)

/-- What is kept when a command is asked about, validation keeps. -/
theorem validateFrom_keeps {d : Dispatcher ρ} {R : ρ → ρ → Prop} (hR : IsPreorder R)
    (h : ∀ c, (d.ask c).Keeps R) (position : Nat) (cs : List Command) :
    (d.validateFrom position cs).Keeps R := by
  induction cs generalizing position with
  | nil => exact .same hR fun _ => rfl
  | cons c cs ih =>
    refine .bind hR ?_ fun _ => ih (position + 1)
    rw [check_eq]
    refine .bind hR (h c) fun answer => ?_
    rcases answer with _ | _ | _ <;> exact .same hR fun _ => rfl

/-- A run keeps what its validation and its runners keep. -/
theorem run_keeps {d : Dispatcher ρ} {R : Desk ρ → Desk ρ → Prop}
    (hvalidate : ∀ cs, (Desk.onHost (d.validate cs)).Keeps R) (hrunner : ∀ c, (d.runner c).Keeps R)
    (cs : List Command) : (d.run cs).Keeps R :=
  .bind (.ofAct (hvalidate cs)) fun _ => .bind (runFrom_keeps hrunner 0 cs) fun _ => trivial

/-- Runners that run one after the other call nothing but runners. -/
theorem watched_runFrom_keeps (d : Dispatcher ρ) (position : Nat) (cs : List Command) :
    (d.watched.runFrom position cs).Keeps OnlyRuns :=
  runFrom_keeps d.watched_runner_keeps position cs

/-- A run of commands that have families begins with the start of the first runner. -/
theorem watched_runFrom_eq_act {d : Dispatcher ρ} {c : Command} (h : d.knows c = true)
    (position : Nat) (cs : List Command) :
    ∃ next, d.watched.runFrom position (c :: cs) = .act (Watched.noteOn (Call.start c)) next := by
  obtain ⟨family, hfamily⟩ := Option.isSome_iff_exists.mp h
  have hrunner : d.watched.runner c = (family.watched c.method).run c.name c.args := by
    rw [runner, watched_lookup, hfamily]
    rfl
  show ∃ next, (d.watched.runAt c position).bind _ = .act _ next
  rw [runAt_of_knows (by rw [watched_knows, h]), hrunner]
  exact ⟨_, rfl⟩

/-- No further calls. -/
def SameCalls (desk desk' : Desk (Watched ρ)) : Prop := desk'.host.calls = desk.host.calls

theorem SameCalls.isPreorder : IsPreorder (SameCalls (ρ := ρ)) where
  refl _ := rfl
  trans h h' := h'.trans h

/-- What the work of a run adds to the calls once validation is over, if what follows the run
makes none: the first of them starts the runner of the first command. -/
theorem watched_runFrom_work {d : Dispatcher ρ} {cs : List Command}
    (hcs : ∀ c ∈ cs, d.knows c = true) {f : Unit → Task (Desk (Watched ρ)) Nat}
    (hf : ∀ u, (f u).Keeps SameCalls) (isOpen : Text → Bool) (reach : Task.Reach)
    (desk : Desk (Watched ρ)) :
    ∃ calls, (((d.watched.runFrom 0 cs).bind f).work isOpen reach desk).state.host.calls
          = desk.host.calls ++ calls
      ∧ calls.head? = cs.head?.map Call.start
      ∧ (∀ call ∈ calls, call.isCheck = false)
      ∧ (((d.watched.runFrom 0 cs).bind f).work isOpen reach desk).task.Keeps OnlyRuns := by
  have hkeeps : ((d.watched.runFrom 0 cs).bind f).Keeps OnlyRuns :=
    .bind (d.watched_runFrom_keeps 0 cs) fun u => (hf u).mono fun _ _ => .of_eq
  cases cs with
  | nil =>
    -- without commands there is only what follows
    have hsame := ((hf ()).work SameCalls.isPreorder isOpen reach desk).1
    refine ⟨[], ?_, rfl, by simp, ?_⟩
    · rw [List.append_nil]
      exact hsame
    · exact (hkeeps.work OnlyRuns.isPreorder isOpen reach desk).2
  | cons c cs =>
    obtain ⟨next, hnext⟩ := watched_runFrom_eq_act (hcs c List.mem_cons_self) 0 cs
    rw [hnext] at hkeeps ⊢
    -- the rest of the run, from the state in which its first start is noted
    obtain ⟨⟨calls, hcalls, hruns⟩, hleft⟩ :=
      (hkeeps desk).2.work OnlyRuns.isPreorder isOpen reach
        (Watched.noteOn (Call.start c) desk)
    refine ⟨Call.start c :: calls, ?_, rfl, ?_, hleft⟩
    · rw [← List.singleton_append, ← List.append_assoc]
      exact hcalls
    · intro call hcall
      rcases List.mem_cons.mp hcall with rfl | hcall
      · rfl
      · exact hruns call hcall

/-- A run whose validation fails ends there and then, in whatever way it is taken. -/
theorem run_work_of_validate_error {d : Dispatcher ρ} {cs : List Command} {desk : Desk ρ}
    {e : Failure} {s : ρ} {xs : List Signal}
    (h : d.validate cs desk.host = ⟨.error e, s, xs⟩) (f : Nat → Task (Desk ρ) Nat)
    (isOpen : Text → Bool) (reach : Task.Reach) :
    ((d.run cs).bind f).work isOpen reach desk
      = ⟨.done (.error e), ⟨desk.pending, s⟩, xs, false⟩ := by
  show (((Task.ofAct (Desk.onHost (d.validate cs))).bind fun _ => _).bind f).work isOpen reach
    desk = _
  rw [Task.bind_assoc, Task.work_ofAct_bind]
  simp only [Desk.onHost, Act.focus_apply, h]

/-- A run whose validation succeeds goes on with its runners in the same turn. -/
theorem run_work_of_grants {d : Dispatcher ρ} {cs : List Command} {desk : Desk ρ}
    (h : d.Grants cs desk.host) (f : Nat → Task (Desk ρ) Nat) (isOpen : Text → Bool)
    (reach : Task.Reach) :
    ((d.run cs).bind f).work isOpen reach desk
      = (((d.runFrom 0 cs).bind fun _ => f cs.length).work isOpen reach
          ⟨desk.pending, d.asked cs desk.host⟩).behind (d.heard cs desk.host) false := by
  show (((Task.ofAct (Desk.onHost (d.validate cs))).bind fun _ =>
    (d.runFrom 0 cs).bind fun _ => .done (.ok cs.length)).bind f).work isOpen reach desk = _
  rw [Task.bind_assoc, Task.work_ofAct_bind]
  simp only [Desk.onHost, Act.focus_apply, validate_of_grants h, Task.bind_assoc, Task.done_bind]

/-! ## All or nothing -/

/-- What comes of a sequence that a task validates and runs from a desk. `watched` is the same task
with its calls noted. -/
structure AllOrNothing (d : Dispatcher ρ) (cs : List Command) (desk : Desk (Watched ρ))
    (task : Task (Desk ρ) Nat) (watched : Task (Desk (Watched ρ)) Nat) : Prop where
  /-- Noting the calls changes nothing else. -/
  shadows : Task.Shadows Watched.forget watched task
  /-- The first command that is not granted is refused, or its check fails. -/
  first : d.Grants cs desk.host.host ∨ ∃ before c after, cs = before ++ c :: after
    ∧ d.Grants before desk.host.host
    ∧ ((∃ refusal, refusal? c (d.ask c (d.asked before desk.host.host)).result = some refusal)
      ∨ ∃ e, (d.ask c (d.asked before desk.host.host)).result = .error e)
  /-- A refusal names the first command that is refused. Each command up to it has been checked
  once, if its method has a family; no runner has been started, and the pending commands stay. -/
  refused : ∀ before c after refusal, cs = before ++ c :: after →
    d.Grants before desk.host.host →
    refusal? c (d.ask c (d.asked before desk.host.host)).result = some refusal →
    ∀ isOpen reach, watched.work isOpen reach desk =
      ⟨.done (.error (Failure.ofCommand (.rejected refusal) (place c before.length))),
        ⟨desk.pending, ⟨d.asked (before ++ [c]) desk.host.host,
          desk.host.calls ++ d.checks (before ++ [c])⟩⟩,
        d.heard (before ++ [c]) desk.host.host ++ [refusalNotice c before.length refusal], false⟩
  /-- It is the same when a check fails itself. -/
  raised : ∀ before c after e, cs = before ++ c :: after → d.Grants before desk.host.host →
    (d.ask c (d.asked before desk.host.host)).result = .error e →
    ∀ isOpen reach, watched.work isOpen reach desk =
      ⟨.done (.error e), ⟨desk.pending, ⟨d.asked (before ++ [c]) desk.host.host,
        desk.host.calls ++ d.checks (before ++ [c])⟩⟩, d.heard (before ++ [c]) desk.host.host,
        false⟩
  /-- If every command is granted, all checks come before the start of the first runner, and none
  comes after it, however often the run is suspended. -/
  granted : d.Grants cs desk.host.host → (d.validate cs desk.host.host).result = .ok ()
    ∧ ∀ isOpen reach, ∃ calls,
      (watched.work isOpen reach desk).state.host.calls
          = desk.host.calls ++ cs.map Call.check ++ calls
        ∧ calls.head? = cs.head?.map Call.start
        ∧ (∀ call ∈ calls, call.isCheck = false)
        ∧ (watched.work isOpen reach desk).task.Keeps OnlyRuns

/-- What is not granted is refused, or its check fails. -/
theorem refused_or_raised {c : Command} {r : Except Failure (Option Bool)}
    (h : r ≠ .ok (some true)) : (∃ refusal, refusal? c r = some refusal) ∨ ∃ e, r = .error e := by
  rcases r with e | answer
  · exact .inr ⟨e, rfl⟩
  · rcases answer with _ | isSafe
    · exact .inl ⟨_, rfl⟩
    · cases isSafe with
      | true => exact absurd rfl h
      | false => exact .inl ⟨_, rfl⟩

/-- A run, whatever follows it, is all or nothing if what follows makes no calls. -/
theorem allOrNothing_bind (d : Dispatcher ρ) (cs : List Command) (desk : Desk (Watched ρ))
    {task : Task (Desk ρ) Nat} {watched : Task (Desk (Watched ρ)) Nat}
    (hshadows : Task.Shadows Watched.forget watched task)
    {f : Nat → Task (Desk (Watched ρ)) Nat} (hf : ∀ n, (f n).Keeps SameCalls)
    (hwatched : ∀ isOpen reach, watched.work isOpen reach desk
      = ((d.watched.run cs).bind f).work isOpen reach desk) :
    AllOrNothing d cs desk task watched where
  shadows := hshadows
  first := by
    rcases d.grants_or_first cs desk.host.host with h | ⟨before, c, after, hcs, hbefore, hc⟩
    · exact .inl h
    · exact .inr ⟨before, c, after, hcs, hbefore, refused_or_raised hc⟩
  refused := by
    rintro before c after refusal rfl hbefore hc isOpen reach
    have hgrants := (watched_grants d before desk.host).mpr hbefore
    rw [← watched_ask_asked] at hc
    rw [hwatched, run_work_of_validate_error (validate_of_refused hgrants hc after),
      watched_asked, watched_heard]
    rfl
  raised := by
    rintro before c after e rfl hbefore hc isOpen reach
    have hgrants := (watched_grants d before desk.host).mpr hbefore
    rw [← watched_ask_asked] at hc
    rw [hwatched, run_work_of_validate_error (validate_of_raised hgrants hc after),
      watched_asked, watched_heard]
  granted := by
    intro h
    refine ⟨by rw [validate_of_grants h], fun isOpen reach => ?_⟩
    have hgrants := (watched_grants d cs desk.host).mpr h
    rw [hwatched, run_work_of_grants hgrants, watched_asked, checks_of_grants h]
    exact watched_runFrom_work (knows_of_grants h) (fun _ => hf cs.length) isOpen reach _

/-- **All or nothing**: whether commands are given, or the pending ones are run or run once, a
command that may not run is found before any of them has been started. -/
theorem run_all_or_nothing (d : Dispatcher ρ) (desk : Desk (Watched ρ)) :
    (∀ cs, AllOrNothing d cs desk (d.run cs) (d.watched.run cs))
      ∧ AllOrNothing d desk.pending desk d.runPending d.watched.runPending
      ∧ AllOrNothing d desk.pending desk d.runOnce d.watched.runOnce := by
  have hdone : ∀ n : Nat, (Task.done (.ok n) : Task (Desk (Watched ρ)) Nat).Keeps SameCalls :=
    fun _ => trivial
  -- all three are a run with something behind it: nothing, nothing, and a change of what is pending
  refine ⟨fun cs => ?_, ?_, ?_⟩
  · refine allOrNothing_bind d cs desk (d.watched_run_shadows cs) hdone fun isOpen reach => ?_
    rw [Task.bind_done]
  · refine allOrNothing_bind d desk.pending desk d.watched_runPending_shadows hdone
      fun isOpen reach => ?_
    rw [Task.bind_done]
    rfl
  · have hclear : ∀ n : Nat,
        ((Task.modify fun desk : Desk (Watched ρ) => { desk with pending := [] }).bind fun _ =>
          Task.done (.ok n)).Keeps SameCalls := fun _ _ => ⟨rfl, trivial⟩
    exact allOrNothing_bind d desk.pending desk d.watched_runOnce_shadows hclear fun _ _ => rfl

/-- A dispatcher with one family that grants the first command it is asked about, and no other. -/
def grantingOnce : Dispatcher Nat :=
  { table := [("e:run", {
      run := fun _ _ => pure .null
      isSafe := fun _ n => ⟨.ok (n = 0), n + 1, []⟩ })]
    sink := none }

/-- The same command three times: it is granted once, refused then, and not asked about again. -/
theorem run_refused_at_second (isOpen : Text → Bool) (reach : Task.Reach) :
    (grantingOnce.watched.run (List.replicate 3 ⟨"e:run", "a", []⟩)).work isOpen reach
        ⟨[], ⟨0, []⟩⟩ =
      ⟨.done (.error (Failure.ofCommand (.rejected (.notSafe "a"))
          { method := some "e:run", command := some "a", position := some 1 })),
        ⟨[], ⟨2, List.replicate 2 (.checked "e:run" "a")⟩⟩,
        [refusalNotice ⟨"e:run", "a", []⟩ 1 (.notSafe "a")], false⟩ :=
  ((run_all_or_nothing grantingOnce ⟨[], ⟨0, []⟩⟩).1 _).refused [⟨"e:run", "a", []⟩]
    ⟨"e:run", "a", []⟩ [⟨"e:run", "a", []⟩] (.notSafe "a") rfl ⟨rfl, trivial⟩ rfl isOpen reach

end Deeplink.Dispatcher

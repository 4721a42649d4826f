import Deeplink.Proofs.Dispatch.Course
import Deeplink.Proofs.Task.Moments

/-!
# Commands in sequence

A run that has passed validation starts each runner when the one before it has settled, and it ends
with the first runner that fails. What a runner does may depend on everything that has been done
before it. Never are two commands run concurrently, and a failure leaves out the later ones
(specification, 4.2).

- `Dispatcher.beside`: others may do anything but note calls.
- `Dispatcher.Returned`: commands whose runners have returned, one after the other.
- `Dispatcher.Conclusion`: how a sequence ends: all runners have returned, or one of them has
  failed.
- `Dispatcher.passes_runFrom`: at every moment of a run, the calls are the beginning of the starts
  and the ends in order.
- `Dispatcher.run_ends_iff`: a validated run ends as its runners do.
- `Dispatcher.run_in_sequence`: both, for every validated sequence.
-/

namespace Deeplink.Dispatcher

open Watched (forget remember noteOn)

variable {ρ : Type}

/-! ## How runners end -/

/-- What others do beside a run: anything, but they do not note calls of its runners. -/
def beside (others : Desk ρ → Desk ρ → Prop) : Desk (Watched ρ) → Desk (Watched ρ) → Prop :=
  Task.OnPart forget remember others

theorem beside_sameCalls {others : Desk ρ → Desk ρ → Prop} {desk desk' : Desk (Watched ρ)}
    (h : beside others desk desk') : SameCalls desk desk' := by
  obtain ⟨v, -, rfl⟩ := h
  rfl

/-- The runners of the commands have returned, one after the other: each begins on the desk that the
one before it has left. -/
inductive Returned (d : Dispatcher ρ) (others : Desk ρ → Desk ρ → Prop) :
    List Command → Desk ρ → Desk ρ → Prop where
  | nil (desk : Desk ρ) : Returned d others [] desk desk
  | cons {c : Command} {cs : List Command} {v : Json} {desk desk₁ desk' : Desk ρ}
      (h : Task.Ends others (d.runner c) desk (.ok v) desk₁)
      (hrest : Returned d others cs desk₁ desk') : Returned d others (c :: cs) desk desk'

/-- A desk with the calls that have been noted. -/
def withCalls (desk : Desk ρ) (calls : List Call) : Desk (Watched ρ) :=
  ⟨desk.pending, ⟨desk.host, calls⟩⟩

/-- The starts and the ends of runners in order. -/
def turns (cs : List Command) : List Call := cs.flatMap fun c => [Call.start c, Call.finish c]

/-- The failure of a run because of a failure of the command at a position: the error names the
command, and the failure is its cause. -/
structure Wraps (c : Command) (position : Nat) (e failure : Failure) : Prop where
  fault : failure.fault = .command ⟨.execution c.name e.message, place c position⟩
  message : failure.message = "Command `" ++ c.name ++ "` failed: " ++ e.message
  cause : failure.cause? = some e

/-- How a sequence of commands ends, from the desk on which the first one begins: the result, the
desk that is left, and the calls of runners. -/
inductive Conclusion (d : Dispatcher ρ) (others : Desk ρ → Desk ρ → Prop) (cs : List Command)
    (desk : Desk ρ) : Except Failure Nat → Desk ρ → List Call → Prop where
  /-- All runners have returned. -/
  | returned {desk' : Desk ρ} (h : Returned d others cs desk desk') :
      Conclusion d others cs desk (.ok cs.length) desk' (turns cs)
  /-- A runner has failed, and those before it have returned. What they have done stays done, and
  so does what the one that has failed has done before. -/
  | failed {before : List Command} {c : Command} {after : List Command} {e failure : Failure}
      {desk₁ desk' : Desk ρ} (hcs : cs = before ++ c :: after)
      (hbefore : Returned d others before desk desk₁)
      (hc : Task.Ends others (d.runner c) desk₁ (.error e) desk') (he : e.escaping? = none)
      (hfailure : Wraps c before.length e failure) :
      Conclusion d others cs desk (.error failure) desk' (turns (before ++ [c]))
  /-- The same, but something escapes: the runner has been cancelled or ends the program, or the
  text of its failure cannot be made. That is not wrapped. -/
  | escaped {before : List Command} {c : Command} {after : List Command} {e escaping : Failure}
      {desk₁ desk' : Desk ρ} (hcs : cs = before ++ c :: after)
      (hbefore : Returned d others before desk desk₁)
      (hc : Task.Ends others (d.runner c) desk₁ (.error e) desk')
      (he : e.escaping? = some escaping) :
      Conclusion d others cs desk (.error escaping) desk' (turns (before ++ [c]))

/-! ## One command -/

section Runner

variable {d : Dispatcher ρ} {others : Desk ρ → Desk ρ → Prop} {c : Command}
  {desk desk' : Desk (Watched ρ)}

/-- The runner of a command with a family: the note of its start, the runner itself, and the note of
its end. -/
theorem watched_runner_eq (h : d.knows c = true) : d.watched.runner c
    = (Task.modify (noteOn (Call.start c))).bind fun _ =>
        ((d.runner c).focus forget remember).attempt.bind fun r =>
          .act (noteOn (Call.finish c)) fun _ => .done r := by
  obtain ⟨family, hfamily⟩ := Option.isSome_iff_exists.mp h
  unfold runner
  rw [watched_lookup, hfamily]
  rfl

/-- A runner is started once and settles once; between these calls it does what it does. -/
theorem watched_runner_ends_iff (h : d.knows c = true) {r : Except Failure Json} :
    Task.Ends (beside others) (d.watched.runner c) desk r desk'
      ↔ ∃ left, Task.Ends others (d.runner c) (forget desk) r left
        ∧ desk' = withCalls left (desk.host.calls ++ turns [c]) := by
  have hturns (calls : List Call) :
      calls ++ [Call.start c] ++ [Call.finish c] = calls ++ turns [c] := List.append_assoc _ _ _
  rw [watched_runner_eq h, Task.Ends.modify_bind_iff, Task.Ends.attempt_bind_iff]
  constructor
  · rintro ⟨r', desk₁, hrun, hnote⟩
    obtain ⟨left, hleft, rfl⟩ := Task.Ends.of_focus Watched.isPart hrun
    cases hnote with
    | act hdone =>
      cases hdone with
      | done => exact ⟨left, hleft, by rw [← hturns]; rfl⟩
  · rintro ⟨left, hleft, rfl⟩
    refine ⟨r, _, hleft.focus Watched.isPart (s := noteOn (Call.start c) desk) rfl, .act ?_⟩
    rw [← hturns]
    exact .done r _

/-- At every moment of a runner its start has been noted, or not yet, and so has its end. -/
theorem passes_runner (h : d.knows c = true)
    (hpasses : Task.Passes (beside others) (d.watched.runner c) desk desk') :
    ∃ calls, calls <+: turns [c] ∧ desk'.host.calls = desk.host.calls ++ calls := by
  rw [watched_runner_eq h] at hpasses
  rcases hpasses.of_modify_bind with rfl | hpasses
  · exact ⟨[], List.nil_prefix, (List.append_nil _).symm⟩
  · have hkeeps : ((d.runner c).focus forget remember).Keeps SameCalls :=
      .focus (.of_forall (R := fun _ _ => True) _ fun _ _ => trivial) fun _ _ _ => rfl
    rcases Task.Passes.of_bind hpasses with hrun | ⟨r, desk₁, hrun, hnote⟩
    · have hsame := hrun.keeps SameCalls.isPreorder beside_sameCalls hkeeps.attempt
      exact ⟨[Call.start c], ⟨[Call.finish c], rfl⟩, hsame⟩
    · have hsame := hrun.keeps SameCalls.isPreorder beside_sameCalls hkeeps.attempt
      rcases hnote.of_act with rfl | hdone
      · exact ⟨[Call.start c], ⟨[Call.finish c], rfl⟩, hsame⟩
      · obtain rfl := hdone.of_done
        refine ⟨turns [c], List.prefix_refl _, ?_⟩
        show desk₁.host.calls ++ [Call.finish c] = _
        rw [hsame]
        exact List.append_assoc _ _ _

end Runner

/-! ## Sequences -/

/-- There is one failure of a run because of a failure of a command. -/
theorem wraps_iff {c : Command} {position : Nat} {e failure : Failure} :
    Wraps c position e failure ↔ failure = breakdown c position e := by
  constructor
  · rintro ⟨hfault, -, hcause⟩
    cases failure with
    | of fault => cases hcause
    | causedBy fault cause =>
      obtain rfl := Option.some.inj hcause
      obtain rfl : fault = _ := hfault
      rfl
  · rintro rfl
    exact ⟨rfl, rfl, rfl⟩

theorem settled_eq_iff {c : Command} {position : Nat} {e failure : Failure}
    (he : e.escaping? = none) :
    settled c position (.error e) = .error failure ↔ Wraps c position e failure := by
  rw [wraps_iff, settled, he]
  exact ⟨fun h => (Except.error.inj h).symm, fun h => congrArg Except.error h.symm⟩

section Sequence

variable {d : Dispatcher ρ} {others : Desk ρ → Desk ρ → Prop} {cs : List Command}
  {desk desk' : Desk (Watched ρ)}

theorem runAt_ends_iff {c : Command} (h : d.knows c = true) {position : Nat}
    {x : Except Failure Unit} :
    Task.Ends (beside others) (d.watched.runAt c position) desk x desk'
      ↔ ∃ r left, Task.Ends others (d.runner c) (forget desk) r left ∧ x = settled c position r
        ∧ desk' = withCalls left (desk.host.calls ++ turns [c]) := by
  rw [runAt_of_knows (by rw [watched_knows, h]), Task.Ends.attempt_bind_iff]
  simp only [watched_runner_ends_iff h, settle_ends_iff]
  constructor
  · rintro ⟨r, desk₁, ⟨left, hleft, rfl⟩, rfl, rfl⟩
    exact ⟨r, left, hleft, rfl, rfl⟩
  · rintro ⟨r, left, hleft, rfl, rfl⟩
    exact ⟨r, _, ⟨left, hleft, rfl⟩, rfl, rfl⟩

/-- A run that has passed commands goes on with the others. -/
theorem Returned.runFrom_ends {before rest : List Command} {start left : Desk ρ}
    (hbefore : Returned d others before start left) (hknown : ∀ c ∈ before, d.knows c = true)
    {position : Nat} {x : Except Failure Unit} (hdesk : forget desk = start)
    (hrest : Task.Ends (beside others) (d.watched.runFrom (position + before.length) rest)
      (withCalls left (desk.host.calls ++ turns before)) x desk') :
    Task.Ends (beside others) (d.watched.runFrom position (before ++ rest)) desk x desk' := by
  induction hbefore generalizing desk position with
  | nil start =>
    subst hdesk
    rwa [turns, List.flatMap_nil, List.append_nil] at hrest
  | @cons c before v start start₁ left hc hbefore ih =>
    subst hdesk
    obtain ⟨hcknown, hknown⟩ := List.forall_mem_cons.mp hknown
    -- one position more behind the command, one command less before it
    rw [List.length_cons, Nat.add_comm before.length, ← Nat.add_assoc] at hrest
    have hfirst : Task.Ends (beside others) (d.watched.runAt c position) desk (.ok ())
        (withCalls start₁ (desk.host.calls ++ turns [c])) :=
      (runAt_ends_iff hcknown).mpr ⟨.ok v, start₁, hc, rfl, rfl⟩
    refine hfirst.bind (ih hknown rfl ?_)
    show Task.Ends _ _ (withCalls left (desk.host.calls ++ turns [c] ++ turns before)) _ _
    rw [List.append_assoc]
    exact hrest

/-- If all runners return, the sequence is over. -/
theorem Returned.runFrom_ends_ok {left : Desk ρ} (hall : Returned d others cs (forget desk) left)
    (hknown : ∀ c ∈ cs, d.knows c = true) (position : Nat) :
    Task.Ends (beside others) (d.watched.runFrom position cs) desk (.ok ())
      (withCalls left (desk.host.calls ++ turns cs)) := by
  have hrest : Task.Ends (beside others) (d.watched.runFrom (position + cs.length) [])
      (withCalls left (desk.host.calls ++ turns cs)) (.ok ()) _ := .done _ _
  have hrun := hall.runFrom_ends hknown rfl hrest
  rwa [List.append_nil] at hrun

/-- If one of them fails, so does the sequence. -/
theorem Returned.runFrom_ends_error {before after : List Command} {c : Command} {e : Failure}
    {left₁ left : Desk ρ} (hbefore : Returned d others before (forget desk) left₁)
    (hknown : ∀ c' ∈ before ++ c :: after, d.knows c' = true) (position : Nat)
    (hc : Task.Ends others (d.runner c) left₁ (.error e) left) :
    Task.Ends (beside others) (d.watched.runFrom position (before ++ c :: after)) desk
      (settled c (position + before.length) (.error e))
      (withCalls left (desk.host.calls ++ turns (before ++ [c]))) := by
  obtain ⟨hbeforeKnown, hrest⟩ := List.forall_mem_append.mp hknown
  have hstop : Task.Ends (beside others) (d.watched.runAt c (position + before.length))
      (withCalls left₁ (desk.host.calls ++ turns before))
      (settled c (position + before.length) (.error e))
      (withCalls left (desk.host.calls ++ turns before ++ turns [c])) :=
    (runAt_ends_iff (hrest c List.mem_cons_self)).mpr ⟨.error e, left, hc, rfl, rfl⟩
  rw [turns, List.flatMap_append, ← List.append_assoc]
  exact hbefore.runFrom_ends hbeforeKnown rfl (hstop.bind_error _)

/-- **The runners of a sequence return one after the other, or one of them fails**, and nothing is
run after it. -/
theorem runFrom_ends (hknown : ∀ c ∈ cs, d.knows c = true) {position : Nat}
    {x : Except Failure Unit}
    (h : Task.Ends (beside others) (d.watched.runFrom position cs) desk x desk') :
    (∃ left, Returned d others cs (forget desk) left ∧ x = .ok ()
        ∧ desk' = withCalls left (desk.host.calls ++ turns cs))
      ∨ ∃ before c after e left₁ left, cs = before ++ c :: after
        ∧ Returned d others before (forget desk) left₁
        ∧ Task.Ends others (d.runner c) left₁ (.error e) left
        ∧ x = settled c (position + before.length) (.error e)
        ∧ desk' = withCalls left (desk.host.calls ++ turns (before ++ [c])) := by
  induction cs generalizing position desk with
  | nil =>
    cases h with
    | done =>
      refine .inl ⟨forget desk', .nil _, rfl, ?_⟩
      rw [turns, List.flatMap_nil, List.append_nil]
      rfl
  | cons c cs ih =>
    obtain ⟨hc, hknown⟩ := List.forall_mem_cons.mp hknown
    rcases Task.Ends.of_bind h with ⟨u, desk₁, hfirst, hrest⟩ | ⟨e, rfl, hfirst⟩
    · obtain ⟨r, left₁, hrunner, hr, rfl⟩ := (runAt_ends_iff hc).mp hfirst
      cases r with
      | error e => cases hr
      | ok v =>
        have hcalls (cs : List Command) :
            desk.host.calls ++ turns [c] ++ turns cs = desk.host.calls ++ turns (c :: cs) := by
          rw [List.append_assoc]
          rfl
        rcases ih hknown hrest with ⟨left, hall, rfl, rfl⟩
          | ⟨before, c', after, e, left₂, left, rfl, hbefore, hc', rfl, rfl⟩
        · exact .inl ⟨left, .cons hrunner hall, rfl, congrArg _ (hcalls cs)⟩
        · refine .inr ⟨c :: before, c', after, e, left₂, left, rfl, .cons hrunner hbefore, hc', ?_,
            congrArg _ (hcalls _)⟩
          rw [List.length_cons, Nat.add_comm before.length, ← Nat.add_assoc]
    · obtain ⟨r, left, hrunner, hr, rfl⟩ := (runAt_ends_iff hc).mp hfirst
      cases r with
      | ok v => cases hr
      | error e' => exact .inr ⟨[], c, cs, e', forget desk, left, rfl, .nil _, hrunner, hr, rfl⟩

theorem passes_runAt {c : Command} (h : d.knows c = true) {position : Nat}
    (hpasses : Task.Passes (beside others) (d.watched.runAt c position) desk desk') :
    ∃ calls, calls <+: turns [c] ∧ desk'.host.calls = desk.host.calls ++ calls := by
  rw [runAt_of_knows (by rw [watched_knows, h])] at hpasses
  rcases Task.Passes.of_bind hpasses with hrunner | ⟨r, desk₁, hrunner, hsettle⟩
  · exact passes_runner h hrunner.of_attempt
  · obtain ⟨r', -, hrunner⟩ := hrunner.of_attempt
    obtain ⟨left, -, rfl⟩ := (watched_runner_ends_iff h).mp hrunner
    have hsame := hsettle.keeps SameCalls.isPreorder beside_sameCalls (settle_keeps c position r)
    exact ⟨turns [c], List.prefix_refl _, hsame⟩

/-- **At every moment the calls are the beginning of the starts and the ends in order.** -/
theorem passes_runFrom (hknown : ∀ c ∈ cs, d.knows c = true) {position : Nat}
    (h : Task.Passes (beside others) (d.watched.runFrom position cs) desk desk') :
    ∃ calls, calls <+: turns cs ∧ desk'.host.calls = desk.host.calls ++ calls := by
  induction cs generalizing position desk with
  | nil =>
    obtain rfl := h.of_done
    exact ⟨[], List.nil_prefix, (List.append_nil _).symm⟩
  | cons c cs ih =>
    obtain ⟨hc, hknown⟩ := List.forall_mem_cons.mp hknown
    have hturns : turns (c :: cs) = turns [c] ++ turns cs := rfl
    rcases Task.Passes.of_bind h with hfirst | ⟨u, desk₁, hfirst, hrest⟩
    · obtain ⟨calls, hprefix, hcalls⟩ := passes_runAt hc hfirst
      exact ⟨calls, hturns ▸ hprefix.trans (List.prefix_append _ _), hcalls⟩
    · obtain ⟨r, left₁, hrunner, hr, rfl⟩ := (runAt_ends_iff hc).mp hfirst
      obtain ⟨calls, hprefix, hcalls⟩ := ih hknown hrest
      refine ⟨turns [c] ++ calls, ?_, by rw [hcalls, withCalls, List.append_assoc]⟩
      rw [hturns]
      exact (List.prefix_append_right_inj _).mpr hprefix

/-! ## Runs -/

/-- The desk of a validated sequence: each command has been checked once. -/
def validated (d : Dispatcher ρ) (cs : List Command) (desk : Desk (Watched ρ)) :
    Desk (Watched ρ) :=
  withCalls ⟨desk.pending, d.asked cs desk.host.host⟩ (desk.host.calls ++ cs.map Call.check)

/-- A run validates the sequence, and then the runners begin. -/
theorem onHost_validate (h : d.Grants cs desk.host.host) :
    Desk.onHost (d.watched.validate cs) desk
      = ⟨.ok (), validated d cs desk, d.watched.heard cs desk.host⟩ := by
  rw [Desk.onHost, Act.focus_apply, validate_of_grants ((d.watched_grants cs desk.host).mpr h),
    watched_asked, checks_of_grants h]
  rfl

/-- **A validated run ends as its runners do.** -/
theorem run_ends_iff (h : d.Grants cs desk.host.host) {x : Except Failure Nat} :
    Task.Ends (beside others) (d.watched.run cs) desk x desk'
      ↔ ∃ left calls, Conclusion d others cs ⟨desk.pending, d.asked cs desk.host.host⟩ x left calls
        ∧ desk' = withCalls left (desk.host.calls ++ cs.map Call.check ++ calls) := by
  have hknown := knows_of_grants h
  have hvalidate := onHost_validate h
  show Task.Ends (beside others) ((Task.ofAct (Desk.onHost (d.watched.validate cs))).bind fun _ =>
    (d.watched.runFrom 0 cs).bind fun _ => .done (.ok cs.length)) desk x desk' ↔ _
  rw [Task.Ends.ofAct_bind_iff (congrArg Outcome.result hvalidate), hvalidate]
  constructor
  · intro hends
    rcases hends.of_bind with ⟨u, desk₁, hrun, hdone⟩ | ⟨e, rfl, hrun⟩
    · cases hdone with
      | done =>
        rcases runFrom_ends hknown hrun with ⟨left, hall, -, rfl⟩
          | ⟨_, _, _, _, _, _, _, _, _, hx, _⟩
        · exact ⟨left, _, .returned hall, rfl⟩
        · cases hx
    · rcases runFrom_ends hknown hrun with ⟨_, _, hx, _⟩
        | ⟨before, c, after, e', left₁, left, hcs, hbefore, hc, hx, rfl⟩
      · cases hx
      · rw [Nat.zero_add] at hx
        refine ⟨left, _, ?_, rfl⟩
        cases he : e'.escaping? with
        | none => exact .failed hcs hbefore hc he ((settled_eq_iff he).mp hx.symm)
        | some escaping =>
          rw [settled, he] at hx
          obtain rfl := Except.error.inj hx
          exact .escaped hcs hbefore hc he
  · rintro ⟨left, calls, hconclusion, rfl⟩
    have hforget : forget (validated d cs desk) = ⟨desk.pending, d.asked cs desk.host.host⟩ := rfl
    rw [← hforget] at hconclusion
    show Task.Ends _ _ (validated d cs desk) _ _
    cases hconclusion with
    | returned hall => exact (hall.runFrom_ends_ok hknown 0).bind (.done _ _)
    | @failed before c after e failure left₁ left hcs hbefore hc he hfailure =>
      subst hcs
      have hrun := hbefore.runFrom_ends_error hknown 0 hc
      rw [Nat.zero_add, (settled_eq_iff he).mpr hfailure] at hrun
      exact hrun.bind_error _
    | @escaped before c after e escaping left₁ left hcs hbefore hc he =>
      subst hcs
      have hrun := hbefore.runFrom_ends_error hknown 0 hc
      rw [settled, he] at hrun
      exact hrun.bind_error _

/-- **At every moment of a validated run the checks have been made, or none of them yet**, and the
runners have come some way. -/
theorem passes_run (h : d.Grants cs desk.host.host)
    (hpasses : Task.Passes (beside others) (d.watched.run cs) desk desk') :
    ∃ calls, calls <+: executed cs ∧ desk'.host.calls = desk.host.calls ++ calls := by
  have hvalidate := onHost_validate h
  rcases Task.Passes.of_bind hpasses with hact | ⟨u, desk₁, hact, hpasses⟩
  · rcases hact.of_ofAct with rfl | rfl
    · exact ⟨[], List.nil_prefix, (List.append_nil _).symm⟩
    · rw [hvalidate]
      exact ⟨cs.map Call.check, List.prefix_append _ _, rfl⟩
  · obtain ⟨-, rfl⟩ := hact.of_ofAct
    rw [hvalidate] at hpasses
    rcases Task.Passes.of_bind hpasses with hrun | ⟨u', desk₂, hrun, hdone⟩
    · obtain ⟨calls, hprefix, hcalls⟩ := passes_runFrom (knows_of_grants h) hrun
      refine ⟨cs.map Call.check ++ calls, (List.prefix_append_right_inj _).mpr hprefix, ?_⟩
      rw [hcalls, ← List.append_assoc]
      rfl
    · obtain rfl := hdone.of_done
      rcases runFrom_ends (knows_of_grants h) hrun with ⟨left, -, -, rfl⟩
        | ⟨_, _, _, _, _, _, _, _, _, hx, _⟩
      · refine ⟨executed cs, List.prefix_refl _, ?_⟩
        rw [executed, ← List.append_assoc]
        rfl
      · cases hx

end Sequence

/-- What comes of a validated sequence that a task runs from a desk. `watched` is the same task with
its calls noted. -/
structure InSequence (d : Dispatcher ρ) (cs : List Command) (desk : Desk (Watched ρ))
    (task : Task (Desk ρ) Nat) (watched : Task (Desk (Watched ρ)) Nat) : Prop where
  /-- Noting the calls changes nothing else. -/
  shadows : Task.Shadows forget watched task
  /-- At every moment the calls are the beginning of all checks and then, for each command in order,
  the start of its runner with its name and arguments and the end of that runner. -/
  ordered : ∀ others desk', Task.Passes (beside others) watched desk desk' →
    ∃ calls, calls <+: executed cs ∧ desk'.host.calls = desk.host.calls ++ calls
  /-- The task ends as its runners do, one after the other, whatever others do meanwhile. -/
  ends : ∀ others x desk', Task.Ends (beside others) watched desk x desk'
    ↔ ∃ left calls, Conclusion d others cs ⟨desk.pending, d.asked cs desk.host.host⟩ x left calls
      ∧ desk' = withCalls left (desk.host.calls ++ cs.map Call.check ++ calls)
  /-- It does end if nothing holds it up. -/
  settles : ∀ others, IsPreorder others →
    ∃ x desk', Task.Ends (beside others) watched desk x desk'

/-- **The runners of a validated sequence run one after the other up to the first that fails.** If
all of them return, the result is their number; a failure names the command at which it has come
about, and none behind it is started. -/
theorem run_in_sequence (d : Dispatcher ρ) (cs : List Command) (desk : Desk (Watched ρ))
    (h : d.Grants cs desk.host.host) :
    InSequence d cs desk (d.run cs) (d.watched.run cs)
      ∧ (cs = desk.pending → InSequence d cs desk d.runPending d.watched.runPending) := by
  have hsettles (others : Desk ρ → Desk ρ → Prop) (hothers : IsPreorder others)
      (t : Task (Desk (Watched ρ)) Nat) : ∃ x desk', Task.Ends (beside others) t desk x desk' :=
    ⟨_, _, .whole (Task.OnPart.isPreorder Watched.isPart hothers) t desk⟩
  constructor
  · exact {
      shadows := d.watched_run_shadows cs
      ordered := fun others desk' hpasses => passes_run h hpasses
      ends := fun others x desk' => run_ends_iff h
      settles := fun others hothers => hsettles others hothers _ }
  · rintro rfl
    exact {
      shadows := d.watched_runPending_shadows
      ordered := by
        intro others desk' hpasses
        rcases hpasses.of_act with rfl | hpasses
        · exact ⟨[], List.nil_prefix, (List.append_nil _).symm⟩
        · exact passes_run h hpasses
      ends := fun others x desk' => ⟨fun hends => (run_ends_iff h).mp hends.of_get_bind,
        fun hends => .act ((run_ends_iff h).mpr hends)⟩
      settles := fun others hothers => hsettles others hothers _ }

/-- A dispatcher with one family, whose runners can count to one only. -/
def countingToOne : Dispatcher Nat :=
  { table := [("e:run", {
      run := fun _ _ => Task.get.bind fun desk =>
        if desk.host = 0 then (Task.modify fun desk => { desk with host := 1 }).bind fun _ =>
          .done (.ok .null)
        else Task.fail (Failure.of (.raised .runtime "no"))
      isSafe := fun _ => pure true })]
    sink := none }

/-- The second of three runners fails because of what the first one has done. -/
theorem second_of_three_fails :
    countingToOne.Grants [⟨"e:run", "a", []⟩, ⟨"e:run", "b", []⟩, ⟨"e:run", "c", []⟩] 0
      ∧ ∃ failure, Wraps ⟨"e:run", "b", []⟩ 1 (Failure.of (.raised .runtime "no")) failure
        ∧ Task.Ends (beside Eq)
          (countingToOne.watched.run [⟨"e:run", "a", []⟩, ⟨"e:run", "b", []⟩, ⟨"e:run", "c", []⟩])
          ⟨[], ⟨0, []⟩⟩ (.error failure)
          ⟨[], ⟨1, [.checked "e:run" "a", .checked "e:run" "b", .checked "e:run" "c",
            .started "e:run" "a" [], .settled "e:run" "a",
            .started "e:run" "b" [], .settled "e:run" "b"]⟩⟩ := by
  have hgrants : countingToOne.Grants
      [⟨"e:run", "a", []⟩, ⟨"e:run", "b", []⟩, ⟨"e:run", "c", []⟩] 0 := ⟨rfl, rfl, rfl, trivial⟩
  have hwraps : Wraps ⟨"e:run", "b", []⟩ 1 (Failure.of (.raised .runtime "no"))
      (.causedBy (.command ⟨.execution "b" "no", place ⟨"e:run", "b", []⟩ 1⟩)
        (Failure.of (.raised .runtime "no"))) := ⟨rfl, rfl, rfl⟩
  refine ⟨hgrants, _, hwraps, ?_⟩
  have hfirst : Returned countingToOne Eq [⟨"e:run", "a", []⟩] ⟨[], 0⟩ ⟨[], 1⟩ :=
    .cons (.act (.act (.done (.ok Json.null) _))) (.nil _)
  have hsecond : Task.Ends Eq (countingToOne.runner ⟨"e:run", "b", []⟩) ⟨[], 1⟩
      (.error (Failure.of (.raised .runtime "no"))) ⟨[], 1⟩ := .act (.done _ _)
  have hends := (countingToOne.run_in_sequence _ ⟨[], ⟨0, []⟩⟩ hgrants).1.ends Eq
  exact (hends _ _).mpr ⟨⟨[], 1⟩, _, .failed rfl hfirst hsecond rfl hwraps, rfl⟩

end Deeplink.Dispatcher

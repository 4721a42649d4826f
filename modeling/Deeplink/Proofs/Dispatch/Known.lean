import Deeplink.Proofs.Dispatch.Records

/-!
# Known methods

What a dispatcher reads are commands of the methods in its table, so that there is a family for each
of them. A sequence of such commands can still be refused, but not for want of a family. A method
that is unknown is discarded by the parser (specification, 4.1, step 7), so that the
dispatcher (4.2) has none to reject.

- `Dispatcher.Known`: the methods of all commands of a sequence are in the table.
- `Dispatcher.Found`: the family of a command checks and runs it.
- `Dispatcher.Declined`: a safety check answers that a command may not run, or fails itself.
- `Dispatcher.ChecksPlainly`: no safety check raises a rejection itself.
- `Dispatcher.validate_error_iff`: nothing else ends the validation of a known sequence.
- `Dispatcher.Untold`: making the text of what a runner has raised fails.
- `Dispatcher.declined_of_run`: a run that ends with a rejection has been declined, unless such a
  text has raised it.
-/

namespace Deeplink

/-- The failure is the rejection of a sequence, whoever has raised it. -/
def Failure.IsRejection (e : Failure) : Prop :=
  ∃ refusal place, e.fault = .command ⟨.rejected refusal, place⟩

/-- A rejection is a failure like any other, which does not escape. -/
theorem Failure.IsRejection.isOrdinary {e : Failure} (h : e.IsRejection) : e.isOrdinary = true := by
  obtain ⟨refusal, place, hfault⟩ := h
  rw [Failure.isOrdinary, hfault]
  rfl

namespace Dispatcher

variable {ρ : Type} {d : Dispatcher ρ} {cs : List Command} {c : Command} {host : ρ} {e : Failure}

/-! ## Known sequences -/

/-- The method of each command is in the table. -/
def Known (d : Dispatcher ρ) (cs : List Command) : Prop := ∀ c ∈ cs, c.method ∈ d.methods

/-- A method that is known has a family. -/
theorem lookup_of_mem_methods (h : c.method ∈ d.methods) :
    ∃ family, d.table.lookup c.method = some family := by
  obtain ⟨⟨method, family⟩, hmem, hmethod⟩ := List.mem_map.mp h
  have hsome : (d.table.lookup c.method).isSome = true :=
    List.lookup_isSome_iff.mpr ⟨_, hmem, beq_iff_eq.mpr hmethod.symm⟩
  exact Option.isSome_iff_exists.mp hsome

/-- The family of a known command is found, and it is what checks and runs the command. -/
structure Found (d : Dispatcher ρ) (c : Command) (family : Family ρ) : Prop where
  lookup : d.table.lookup c.method = some family
  check : ∀ position, d.check c position = do
    if ← family.isSafe c.name then return () else refuse c position (.notSafe c.name)
  runner : d.runner c = family.run c.name c.args

/-- The family of a known method is found for each of its commands. -/
theorem found_of_mem_methods (h : c.method ∈ d.methods) :
    ∃ family, d.Found c family := by
  obtain ⟨family, hfamily⟩ := lookup_of_mem_methods h
  refine ⟨family, { lookup := hfamily, check := fun position => ?_, runner := ?_ }⟩
  · rw [Dispatcher.check, hfamily]
  · rw [Dispatcher.runner, hfamily]

/-- A fragment gives commands with known methods only. -/
theorem known_of_parse {raw : Option Text} (h : (d.parse raw host).result = .ok cs) :
    d.Known cs := by
  obtain rfl := Fragment.eq_commands_of_parse h
  intro c hc
  exact Fragment.method_mem_of_mem_commands hc

/-- Whatever an operation of the dispatcher leaves is known. -/
theorem known_of_mark (d : Dispatcher ρ) (mark : Pending.Mark) :
    d.Known (mark.commands d.methods) := by
  cases mark with
  | loaded raw => exact fun c hc => Fragment.method_mem_of_mem_commands hc
  | cleared => exact fun c hc => nomatch hc

/-! ## Declined sequences -/

/-- The safety check of a command answers that it may not run, and those before it may. The
rejection names the command. -/
def Answered (d : Dispatcher ρ) (cs : List Command) (host : ρ) (e : Failure) : Prop :=
  ∃ before c after family, cs = before ++ c :: after ∧ d.Grants before host
    ∧ d.table.lookup c.method = some family
    ∧ (family.isSafe c.name (d.asked before host)).result = .ok false
    ∧ e = rejection c before.length (.notSafe c.name)

/-- The safety check of a command fails itself, and those before it may run. The failure is passed
on as it is. -/
def Unanswered (d : Dispatcher ρ) (cs : List Command) (host : ρ) (e : Failure) : Prop :=
  ∃ before c after family, cs = before ++ c :: after ∧ d.Grants before host
    ∧ d.table.lookup c.method = some family
    ∧ (family.isSafe c.name (d.asked before host)).result = .error e

/-- Why a sequence of commands that all have families is not run. -/
def Declined (d : Dispatcher ρ) (cs : List Command) (host : ρ) (e : Failure) : Prop :=
  d.Answered cs host e ∨ d.Unanswered cs host e

/-- No safety check raises a rejection itself. -/
def ChecksPlainly (d : Dispatcher ρ) : Prop :=
  ∀ method family, d.table.lookup method = some family →
    ∀ name host e, (family.isSafe name host).result = .error e → ¬ e.IsRejection

/-- If no check raises a rejection itself, every rejection is the answer of a check. -/
theorem Declined.answered (h : d.Declined cs host e) (hplain : d.ChecksPlainly)
    (he : e.IsRejection) : d.Answered cs host e := by
  rcases h with h | ⟨before, c, after, family, -, -, hfamily, hraised⟩
  · exact h
  · exact absurd he (hplain c.method family hfamily c.name _ e hraised)

/-- The answer about a command that has a family is that of its safety check. -/
theorem ask_result {family : Family ρ} (h : d.table.lookup c.method = some family) :
    (d.ask c host).result = (family.isSafe c.name host).result.map some := by
  rw [ask_of_lookup h]

/-- A refusal declines the first command that is not granted, and no family is missing. -/
theorem declined_of_refusal {before after : List Command} {refusal : Refusal}
    (hknown : d.Known (before ++ c :: after)) (hbefore : d.Grants before host)
    (hc : refusal? c (d.ask c (d.asked before host)).result = some refusal) :
    d.Declined (before ++ c :: after) host (rejection c before.length refusal) := by
  obtain ⟨family, hfamily⟩ := lookup_of_mem_methods (hknown c (by simp))
  rw [ask_result hfamily] at hc
  cases hanswer : (family.isSafe c.name (d.asked before host)).result with
  | error e =>
    rw [hanswer] at hc
    cases hc
  | ok isSafe =>
    rw [hanswer] at hc
    cases isSafe with
    | true => cases hc
    | false =>
      cases hc
      exact .inl ⟨before, c, after, family, rfl, hbefore, hfamily, hanswer, rfl⟩

/-- A check that fails declines the first command that is not granted, too. -/
theorem declined_of_raised {before after : List Command}
    (hknown : d.Known (before ++ c :: after)) (hbefore : d.Grants before host)
    (hc : (d.ask c (d.asked before host)).result = .error e) :
    d.Declined (before ++ c :: after) host e := by
  obtain ⟨family, hfamily⟩ := lookup_of_mem_methods (hknown c (by simp))
  rw [ask_result hfamily] at hc
  cases hanswer : (family.isSafe c.name (d.asked before host)).result with
  | error e' =>
    rw [hanswer] at hc
    obtain rfl := Except.error.inj hc
    exact .inr ⟨before, c, after, family, rfl, hbefore, hfamily, hanswer⟩
  | ok isSafe =>
    rw [hanswer] at hc
    cases hc

/-- **The validation of a known sequence fails exactly if it is declined.** -/
theorem validate_error_iff (hknown : d.Known cs) :
    (d.validate cs host).result = .error e ↔ d.Declined cs host e := by
  constructor
  · intro h
    rcases d.grants_or_first cs host with hgrants | ⟨before, c, after, rfl, hbefore, hc⟩
    · rw [validate_of_grants hgrants] at h
      cases h
    · rcases refused_or_raised hc with ⟨refusal, hrefusal⟩ | ⟨e', he⟩
      · rw [validate_of_refused hbefore hrefusal] at h
        obtain rfl := Except.error.inj h
        exact declined_of_refusal hknown hbefore hrefusal
      · rw [validate_of_raised hbefore he] at h
        obtain rfl := Except.error.inj h
        exact declined_of_raised hknown hbefore he
  · rintro (⟨before, c, after, family, rfl, hbefore, hfamily, hanswer, rfl⟩
      | ⟨before, c, after, family, rfl, hbefore, hfamily, hraised⟩)
    · have hc : refusal? c (d.ask c (d.asked before host)).result = some (.notSafe c.name) := by
        rw [ask_result hfamily, hanswer]
        rfl
      rw [validate_of_refused hbefore hc]
    · have hc : (d.ask c (d.asked before host)).result = .error e := by
        rw [ask_result hfamily, hraised]
        rfl
      rw [validate_of_raised hbefore hc]

/-- The runner of one of the commands raises something that is caught, but making its text fails. -/
def Untold (d : Dispatcher ρ) (others : Desk ρ → Desk ρ → Prop) (cs : List Command) (e : Failure) :
    Prop :=
  ∃ c ∈ cs, ∃ desk raised desk', Task.Ends others (d.runner c) desk (.error raised) desk'
    ∧ raised.isOrdinary = true ∧ raised.fault.textFailure? = some e

section Ends

variable {others : Desk ρ → Desk ρ → Prop} {desk desk' : Desk ρ}

/-- **A run of a known sequence that ends with a rejection has been declined**, unless making a text
has raised it. What a runner fails with is wrapped, and so is a rejection among it. -/
theorem declined_of_run (hknown : d.Known cs)
    (hends : Task.Ends others (d.run cs) desk (.error e) desk') (he : e.IsRejection) :
    d.Declined cs desk.host e ∨ d.Untold others cs e := by
  obtain ⟨xs, hshows⟩ := hends.shows
  obtain ⟨k, stop, own, htrail⟩ := run_shows_iff.mp hshows
  cases htrail with
  | refused hcs hbefore hc =>
    subst hcs
    exact .inl (declined_of_refusal hknown hbefore hc)
  | unanswered hcs hbefore hc =>
    subst hcs
    exact .inl (declined_of_raised hknown hbefore hc)
  | failed _ _ _ _ _ hfailure =>
    -- the fault is that of a command that has failed, even if a rejection is its cause
    obtain ⟨refusal, place, hfault⟩ := he
    rw [hfailure.fault] at hfault
    cases hfault
  | escaped _ hcs _ hc hescaping =>
    rcases Failure.escaping?_eq_some_iff.mp hescaping with ⟨hordinary, htext⟩ | ⟨hordinary, rfl⟩
    · exact .inr ⟨_, by rw [hcs]; simp, _, _, _, hc.ends, hordinary, htext⟩
    · rw [he.isOrdinary] at hordinary
      cases hordinary

/-- A run of what is pending is declined like any other run. -/
theorem declined_of_runPending (hknown : d.Known desk.pending)
    (hends : Task.Ends others d.runPending desk (.error e) desk') (he : e.IsRejection) :
    d.Declined desk.pending desk.host e ∨ d.Untold others desk.pending e :=
  declined_of_run hknown hends.of_get_bind he

/-- A run behind which what is pending is cleared is declined like any other run. -/
theorem declined_of_runOnce (hknown : d.Known desk.pending)
    (hends : Task.Ends others d.runOnce desk (.error e) desk') (he : e.IsRejection) :
    d.Declined desk.pending desk.host e ∨ d.Untold others desk.pending e := by
  rw [runOnce_eq] at hends
  rcases hends.of_bind with ⟨count, desk₁, -, hclear⟩ | ⟨e', h, hrun⟩
  · -- clearing what is pending does not fail
    cases hclear with
    | act hdone => cases hdone
  · obtain rfl := Except.error.inj h
    exact declined_of_runPending hknown hrun he

/-- Reading a fragment is never a rejection, so that its commands have been read before one. -/
theorem declined_of_runFragment {raw : Option Text}
    (hends : Task.Ends others (d.runFragment raw) desk (.error e) desk') (he : e.IsRejection) :
    ∃ cs host trace, d.parse raw desk.host = ⟨.ok cs, host, trace⟩
      ∧ (d.Declined cs host e ∨ d.Untold others cs e) := by
  rcases Task.Ends.of_bind hends with ⟨cs, desk₁, hparse, hrun⟩ | ⟨e', h, hparse⟩
  · obtain ⟨hcs, rfl⟩ := hparse.of_ofAct
    have hcs : (d.parse raw desk.host).result = .ok cs := hcs.symm
    refine ⟨cs, (d.parse raw desk.host).state, (d.parse raw desk.host).trace, ?_, ?_⟩
    · rw [← hcs]
    · exact declined_of_run (known_of_parse hcs) hrun he
  · obtain rfl := Except.error.inj h
    obtain ⟨hfailed, -⟩ := hparse.of_ofAct
    have hfailed : (d.parse raw desk.host).result = .error e := hfailed.symm
    obtain ⟨hordinary, -⟩ := Fragment.parse_error hfailed
    rw [he.isOrdinary] at hordinary
    cases hordinary

end Ends

end Dispatcher

end Deeplink

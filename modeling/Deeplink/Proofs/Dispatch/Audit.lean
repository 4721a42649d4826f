import Deeplink.Proofs.Dispatch.Records

/-!
# The audit of a run

What the records of a run tell about it, without the run. This is what the logging that the
specification asks for (4.2) comes to.

- `Dispatcher.Refuses`, `Dispatcher.Raises`: a sequence is refused, or a safety check fails before
  anything else is known.
- `Dispatcher.Accounted`: the records of a refusal, or those of the commands up to a failure or to
  the end.
- `Dispatcher.Stops`: a run ends with what the runner of a command has raised.
- `Dispatcher.Tells`: a record and an error tell the same.
- `Dispatcher.Audit`: what the records tell.
- `Dispatcher.run_leaves_audit_trail`: this holds of all ways to run commands.
- `Dispatcher.hidden_ends_unaccounted`: what escapes leaves no record, and a safety check that fails
  does not either.
-/

namespace Deeplink.Dispatcher

variable {ρ : Type}

/-! ## Validation that fails -/

/-- The first command that is not granted is refused. -/
def Refuses (d : Dispatcher ρ) (cs : List Command) (s : ρ) : Prop :=
  ∃ before c after refusal, cs = before ++ c :: after ∧ d.Grants before s
    ∧ refusal? c (d.ask c (d.asked before s)).result = some refusal

/-- The safety check of the first command that is not granted fails itself. -/
def Raises (d : Dispatcher ρ) (cs : List Command) (s : ρ) : Prop :=
  ∃ before c after e, cs = before ++ c :: after ∧ d.Grants before s
    ∧ (d.ask c (d.asked before s)).result = .error e

/-- If all commands are granted, then so are the last of them, after the first have been asked. -/
theorem Grants.of_append {d : Dispatcher ρ} {before after : List Command} {s : ρ}
    (h : d.Grants (before ++ after) s) : d.Grants after (d.asked before s) := by
  induction before generalizing s with
  | nil => exact h
  | cons c before ih => exact ih h.2

/-- There is one command at most behind granted ones that is not granted. -/
theorem Grants.stop_unique {d : Dispatcher ρ} {before before' after after' : List Command}
    {c c' : Command} {s : ρ} (hsame : before ++ c :: after = before' ++ c' :: after')
    (h : d.Grants before s) (h' : d.Grants before' s)
    (hc : (d.ask c (d.asked before s)).result ≠ .ok (some true))
    (hc' : (d.ask c' (d.asked before' s)).result ≠ .ok (some true)) :
    before = before' ∧ c = c' := by
  induction before generalizing before' s with
  | nil =>
    cases before' with
    | nil => exact ⟨rfl, (List.cons.inj hsame).1⟩
    | cons b' before' =>
      obtain ⟨rfl, -⟩ := List.cons.inj hsame
      exact absurd h'.1 hc
  | cons b before ih =>
    cases before' with
    | nil =>
      obtain ⟨rfl, -⟩ := List.cons.inj hsame
      exact absurd h.1 hc'
    | cons b' before' =>
      obtain ⟨rfl, hrest⟩ := List.cons.inj hsame
      obtain ⟨rfl, rfl⟩ := ih hrest h.2 h'.2 hc hc'
      exact ⟨rfl, rfl⟩

/-- A command that is refused has not been granted. -/
theorem ne_granted_of_refusal {c : Command} {r : Except Failure (Option Bool)} {refusal : Refusal}
    (h : refusal? c r = some refusal) : r ≠ .ok (some true) := by
  rintro rfl
  cases h

/-- Not all commands are granted if one is refused. -/
theorem Refuses.not_grants {d : Dispatcher ρ} {cs : List Command} {s : ρ} (h : d.Refuses cs s) :
    ¬d.Grants cs s := by
  obtain ⟨before, c, after, refusal, rfl, -, hc⟩ := h
  exact fun hgrants => ne_granted_of_refusal hc hgrants.of_append.1

/-- Not all commands are granted if a check fails. -/
theorem Raises.not_grants {d : Dispatcher ρ} {cs : List Command} {s : ρ} (h : d.Raises cs s) :
    ¬d.Grants cs s := by
  obtain ⟨before, c, after, e, rfl, -, hc⟩ := h
  intro hgrants
  have hgranted := hgrants.of_append.1
  rw [hc] at hgranted
  cases hgranted

/-- A refusal and a failing check exclude each other: the first command not granted decides. -/
theorem Refuses.not_raises {d : Dispatcher ρ} {cs : List Command} {s : ρ} (h : d.Refuses cs s) :
    ¬d.Raises cs s := by
  obtain ⟨before, c, after, refusal, rfl, hbefore, hc⟩ := h
  rintro ⟨before', c', after', e, hsame, hbefore', hc'⟩
  have hnot : (d.ask c' (d.asked before' s)).result ≠ .ok (some true) := by
    rw [hc']
    nofun
  obtain ⟨rfl, rfl⟩ := Grants.stop_unique hsame hbefore hbefore' (ne_granted_of_refusal hc) hnot
  rw [hc'] at hc
  cases hc

/-! ## What the records tell -/

/-- A record and an error have the same message, the same code, and the same command at the same
position. -/
def Tells (n : Log.Notice) (failure : Failure) : Prop :=
  ∃ error : CommandError, failure.fault = .command error ∧ n.message = error.message
    ∧ n.context = {
      method := error.place.method
      command := error.place.command
      errorCode := some error.cause.code
      position := error.place.position }

/-- The one record of a refusal, or the records of the commands up to one whose runner has failed,
and that of its failure behind them, or the records of all commands. -/
def Accounted (cs : List Command) (own : List Log.Notice) : Prop :=
  (∃ c position refusal, cs[position]? = some c ∧ own = [refusalRecord c position refusal])
    ∨ (∃ c k e, cs[k]? = some c ∧ own = ranRecords 0 (cs.take k) ++ [failureRecord c k e])
    ∨ own = ranRecords 0 cs

/-- The families write no records to the log of dispatchers. -/
structure Silent (d : Dispatcher ρ) (others : Desk ρ → Desk ρ → Prop) : Prop where
  check : ∀ c s, records (d.ask c s).trace = []
  runner : ∀ c desk r desk' xs, Task.Shows others (d.runner c) desk r desk' xs → records xs = []

/-- The runner of the command at a position has raised a failure. The run ends with an error that
names the command, or with what escapes. -/
structure Stops (d : Dispatcher ρ) (others : Desk ρ → Desk ρ → Prop) (cs : List Command)
    (desk : Desk ρ) (k : Nat) (e : Failure) (r : Except Failure Nat) : Prop where
  granted : d.Grants cs desk.host
  raised : ∃ c desk₁ desk₂ xs, cs[k]? = some c
    ∧ Task.Shows others (d.runner c) desk₁ (.error e) desk₂ xs
    ∧ r = .error (e.escaping?.getD (breakdown c k e))

/-- What the records of a run tell about it: `k` commands have been completed, `stop` is what the
runner of the next one has raised if it has failed, `r` is the result, `own` are the records of the
run itself, and `xs` is all that has been shown. -/
structure Audit (d : Dispatcher ρ) (others : Desk ρ → Desk ρ → Prop) (cs : List Command)
    (desk : Desk ρ) (k : Nat) (stop : Option Failure) (r : Except Failure Nat)
    (own : List Log.Notice) (xs : List Signal) : Prop where
  /-- The debugging records are those of the completed commands, in order. -/
  ran : own.filter (·.level = .debug) = ranRecords 0 (cs.take k)
  below : k ≤ cs.length
  /-- The run has succeeded exactly if all commands are completed. -/
  complete : k = cs.length ↔ r = .ok cs.length
  /-- If validation succeeds, all commands are completed exactly if no runner has failed. -/
  unstopped : d.Grants cs desk.host → (k = cs.length ↔ stop = none)
  /-- The runner behind the completed commands is what has failed, and the run ends with that. -/
  stopped : ∀ e, stop = some e → Stops d others cs desk k e r
  /-- There is a warning exactly if the sequence is refused. -/
  warned : (∃ n ∈ own, n.level = .warning) ↔ d.Refuses cs desk.host
  /-- There is an error exactly if a runner has failed and nothing escapes. -/
  erred : (∃ n ∈ own, n.level = .error) ↔ ∃ e, stop = some e ∧ e.escaping? = none
  /-- What escapes leaves no record, and it is passed on as it is. -/
  escaped : ∀ e escaping, stop = some e → e.escaping? = some escaping →
    own = ranRecords 0 (cs.take k) ∧ r = .error escaping
  /-- There are no records at all if a safety check has failed. -/
  unanswered : d.Raises cs desk.host → own = []
  /-- Nothing is missing and nothing is left over, unless something escapes or a safety check has
  failed. -/
  accounted : Accounted cs own ∨ (∃ e escaping, stop = some e ∧ e.escaping? = some escaping)
    ∨ d.Raises cs desk.host
  /-- The record behind them tells the same as the error of the run. -/
  tells : ∀ n ∈ own, n.level ≠ .debug → ∃ failure, r = .error failure ∧ Tells n failure
  /-- The records are shown, in this order. -/
  shown : own.Sublist (records xs)
  /-- If the families write none themselves, nothing else is in the log. -/
  alone : d.Silent others → records xs = own

section Trails

variable {d : Dispatcher ρ} {others : Desk ρ → Desk ρ → Prop} {cs : List Command}
  {desk desk' left : Desk ρ} {k : Nat} {stop : Option Failure} {r : Except Failure Nat}
  {own : List Log.Notice} {xs : List Signal}

/-- A command stands behind those before it. -/
theorem getElem?_of_eq_append {before after : List Command} {c : Command}
    (hcs : cs = before ++ c :: after) : cs[before.length]? = some c := by
  rw [hcs, List.getElem?_append_right (Nat.le_refl _), Nat.sub_self]
  rfl

/-- The commands that have run have their records among all that is recorded. -/
theorem Recorded.ranRecords_sublist {position : Nat}
    (h : Recorded d others position cs desk desk' xs) :
    (ranRecords position cs).Sublist (records xs) := by
  induction h with
  | nil position desk => exact List.nil_sublist _
  | @cons position c cs v desk desk₁ desk' xs ys _ _ ih =>
    rw [ranRecords_cons, records_append, records_cons rfl]
    exact (ih.cons_cons _).trans (List.sublist_append_right _ _)

/-- If nobody else records anything, the records of the commands that have run are all there are. -/
theorem Recorded.records_eq (hsilent : d.Silent others) {position : Nat}
    (h : Recorded d others position cs desk desk' xs) : records xs = ranRecords position cs := by
  induction h with
  | nil position desk => rfl
  | @cons position c cs v desk desk₁ desk' xs ys hc _ ih =>
    rw [ranRecords_cons, records_append, records_cons rfl, hsilent.runner _ _ _ _ _ hc, ih]
    rfl

/-- Checks record nothing by themselves. -/
theorem Silent.heard (h : d.Silent others) (cs : List Command) (s : ρ) :
    records (d.heard cs s) = [] := by
  induction cs generalizing s with
  | nil => rfl
  | cons c cs ih =>
    show records ((d.ask c s).trace ++ d.heard cs (d.ask c s).state) = []
    rw [records_append, h.check, ih]
    rfl

/-- The record of a failure tells of the error that is passed on. -/
theorem Wraps.tells {c : Command} {position : Nat} {e failure : Failure}
    (h : Wraps c position e failure) : Tells (failureRecord c position e) failure :=
  ⟨_, h.fault, rfl, rfl⟩

/-! ## Reading a trail -/

namespace Trail

variable (h : Trail d others cs desk k stop r left own xs)

include h

/-- At the level of completed commands, there is one record for each of them, and none besides. -/
theorem filter_debug : own.filter (·.level = .debug) = ranRecords 0 (cs.take k) := by
  cases h with
  | refused => rfl
  | unanswered => rfl
  | completed => rw [filter_ranRecords, List.take_length]
  | failed _ hcs =>
    rw [hcs, List.take_left, List.filter_append, filter_ranRecords]
    exact List.append_nil _
  | escaped _ hcs => rw [hcs, List.take_left, filter_ranRecords]

/-- No more commands are completed than there are. -/
theorem le_length : k ≤ cs.length := by
  cases h with
  | refused => exact Nat.zero_le _
  | unanswered => exact Nat.zero_le _
  | completed => exact Nat.le_refl _
  | failed _ hcs => simp [hcs]
  | escaped _ hcs => simp [hcs]

/-- All of them are completed exactly by a run that reports how many there are. -/
theorem eq_length_iff : k = cs.length ↔ r = .ok cs.length := by
  have hstopped {before : List Command} {c : Command} {after : List Command} {e : Failure}
      (hcs : cs = before ++ c :: after) (hk : k ≤ before.length) (hr : r = .error e) :
      k = cs.length ↔ r = .ok cs.length := by
    constructor
    · intro hlength
      simp only [hcs, List.length_append, List.length_cons] at hlength
      omega
    · intro hok
      rw [hr] at hok
      cases hok
  cases h with
  | refused hcs => exact hstopped hcs (Nat.zero_le _) rfl
  | unanswered hcs => exact hstopped hcs (Nat.zero_le _) rfl
  | completed => exact ⟨fun _ => rfl, fun _ => rfl⟩
  | failed _ hcs => exact hstopped hcs (Nat.le_refl _) rfl
  | escaped _ hcs => exact hstopped hcs (Nat.le_refl _) rfl

/-- A warning is recorded exactly if a command is refused. -/
theorem exists_warning_iff : (∃ n ∈ own, n.level = .warning) ↔ d.Refuses cs desk.host := by
  have hgranted (hgrants : d.Grants cs desk.host) (hnone : ∀ n ∈ own, n.level ≠ .warning) :
      (∃ n ∈ own, n.level = .warning) ↔ d.Refuses cs desk.host := by
    constructor
    · rintro ⟨n, hn, hlevel⟩
      exact absurd hlevel (hnone n hn)
    · intro hrefuses
      exact absurd hgrants hrefuses.not_grants
  have hran {before : List Command} {n : Log.Notice} (hn : n ∈ ranRecords 0 before) :
      n.level ≠ .warning := by
    rw [level_of_mem_ranRecords hn]
    nofun
  cases h with
  | refused hcs hbefore hc =>
    exact ⟨fun _ => ⟨_, _, _, _, hcs, hbefore, hc⟩, fun _ => ⟨_, List.mem_singleton_self _, rfl⟩⟩
  | unanswered hcs hbefore hc =>
    constructor
    · rintro ⟨n, hn, -⟩
      cases hn
    · intro hrefuses
      exact absurd ⟨_, _, _, _, hcs, hbefore, hc⟩ hrefuses.not_raises
  | completed hgrants => exact hgranted hgrants fun n hn => hran hn
  | failed hgrants =>
    refine hgranted hgrants fun n hn => ?_
    rcases List.mem_append.mp hn with hn | hn
    · exact hran hn
    · obtain rfl := List.mem_singleton.mp hn
      nofun
  | escaped hgrants => exact hgranted hgrants fun n hn => hran hn

/-- An error is recorded exactly if a runner has failed with something that does not escape. -/
theorem exists_error_iff :
    (∃ n ∈ own, n.level = .error) ↔ ∃ e, stop = some e ∧ e.escaping? = none := by
  have hnone (hstop : stop = none) (hlevel : ∀ n ∈ own, n.level ≠ .error) :
      (∃ n ∈ own, n.level = .error) ↔ ∃ e, stop = some e ∧ e.escaping? = none := by
    constructor
    · rintro ⟨n, hn, hn'⟩
      exact absurd hn' (hlevel n hn)
    · rintro ⟨e, he, -⟩
      rw [hstop] at he
      cases he
  have hran {before : List Command} {n : Log.Notice} (hn : n ∈ ranRecords 0 before) :
      n.level ≠ .error := by
    rw [level_of_mem_ranRecords hn]
    nofun
  cases h with
  | refused =>
    refine hnone rfl fun n hn => ?_
    obtain rfl := List.mem_singleton.mp hn
    nofun
  | unanswered => exact hnone rfl fun n hn => nomatch hn
  | completed => exact hnone rfl fun n hn => hran hn
  | failed _ _ _ _ he =>
    constructor
    · exact fun _ => ⟨_, rfl, he⟩
    · exact fun _ => ⟨_, List.mem_append_right _ (List.mem_singleton_self _), rfl⟩
  | escaped _ _ _ _ he =>
    constructor
    · rintro ⟨n, hn, hlevel⟩
      exact absurd hlevel (hran hn)
    · rintro ⟨_, ⟨⟩, he'⟩
      rw [he] at he'
      cases he'

/-- When all are granted, only a runner that fails keeps a command from being completed. -/
theorem eq_length_iff_of_grants (hgrants : d.Grants cs desk.host) :
    k = cs.length ↔ stop = none := by
  have hstopped {before after : List Command} {c : Command} {e : Failure}
      (hcs : cs = before ++ c :: after) : before.length = cs.length ↔ some e = none := by
    simp [hcs]
  cases h with
  | refused hcs hbefore hc =>
    exact absurd hgrants (Refuses.not_grants ⟨_, _, _, _, hcs, hbefore, hc⟩)
  | unanswered hcs hbefore hc =>
    exact absurd hgrants (Raises.not_grants ⟨_, _, _, _, hcs, hbefore, hc⟩)
  | completed => exact ⟨fun _ => rfl, fun _ => rfl⟩
  | failed _ hcs => exact hstopped hcs
  | escaped _ hcs => exact hstopped hcs

/-- The runner that has failed is the one behind the completed commands. -/
theorem stops {e : Failure} (hstop : stop = some e) : Stops d others cs desk k e r := by
  cases h with
  | refused => cases hstop
  | unanswered => cases hstop
  | completed => cases hstop
  | failed hgrants hcs _ hc he hfailure =>
    obtain rfl := Option.some.inj hstop
    refine ⟨hgrants, _, _, _, _, getElem?_of_eq_append hcs, hc, ?_⟩
    rw [he, wraps_iff.mp hfailure]
    rfl
  | escaped hgrants hcs _ hc he =>
    obtain rfl := Option.some.inj hstop
    refine ⟨hgrants, _, _, _, _, getElem?_of_eq_append hcs, hc, ?_⟩
    rw [he]
    rfl

/-- What escapes is passed on as it is, and leaves no record of its own. -/
theorem escapes {e escaping : Failure} (hstop : stop = some e)
    (he : e.escaping? = some escaping) :
    own = ranRecords 0 (cs.take k) ∧ r = .error escaping := by
  cases h with
  | refused => cases hstop
  | unanswered => cases hstop
  | completed => cases hstop
  | failed _ _ _ _ hnone =>
    obtain rfl := Option.some.inj hstop
    rw [he] at hnone
    cases hnone
  | escaped _ hcs _ _ hsome =>
    obtain rfl := Option.some.inj hstop
    obtain rfl := Option.some.inj (he.symm.trans hsome)
    exact ⟨by rw [hcs, List.take_left], rfl⟩

/-- A check that fails leaves no record: nothing has run, and nothing has been refused. -/
theorem eq_nil_of_raises (hraises : d.Raises cs desk.host) : own = [] := by
  cases h with
  | refused hcs hbefore hc =>
    exact absurd hraises (Refuses.not_raises ⟨_, _, _, _, hcs, hbefore, hc⟩)
  | unanswered => rfl
  | completed hgrants => exact absurd hgrants hraises.not_grants
  | failed hgrants => exact absurd hgrants hraises.not_grants
  | escaped hgrants => exact absurd hgrants hraises.not_grants

/-- The records account for every command, but for two kinds of ends. -/
theorem accounted : Accounted cs own ∨ (∃ e escaping, stop = some e ∧ e.escaping? = some escaping)
    ∨ d.Raises cs desk.host := by
  cases h with
  | refused hcs => exact .inl (.inl ⟨_, _, _, getElem?_of_eq_append hcs, rfl⟩)
  | unanswered hcs hbefore hc => exact .inr (.inr ⟨_, _, _, _, hcs, hbefore, hc⟩)
  | completed => exact .inl (.inr (.inr rfl))
  | @failed before c after e _ _ _ _ _ _ hcs =>
    refine .inl (.inr (.inl ⟨c, before.length, e, getElem?_of_eq_append hcs, ?_⟩))
    rw [hcs, List.take_left]
  | escaped _ _ _ _ he => exact .inr (.inl ⟨_, _, rfl, he⟩)

/-- Every record that is not of a completed command tells of the failure that ends the run. -/
theorem tells {n : Log.Notice} (hn : n ∈ own) (hlevel : n.level ≠ .debug) :
    ∃ failure, r = .error failure ∧ Tells n failure := by
  have hran {before : List Command} (hn : n ∈ ranRecords 0 before) :
      ∃ failure, r = .error failure ∧ Tells n failure :=
    absurd (level_of_mem_ranRecords hn) hlevel
  cases h with
  | refused =>
    obtain rfl := List.mem_singleton.mp hn
    exact ⟨_, rfl, _, rfl, rfl, rfl⟩
  | unanswered => cases hn
  | completed => exact hran hn
  | failed _ _ _ _ _ hfailure =>
    rcases List.mem_append.mp hn with hn | hn
    · exact hran hn
    · obtain rfl := List.mem_singleton.mp hn
      exact ⟨_, rfl, hfailure.tells⟩
  | escaped => exact hran hn

/-- What the run records is among all that is recorded, in the same order. -/
theorem own_sublist : own.Sublist (records xs) := by
  cases h with
  | refused =>
    rw [records_append]
    exact List.sublist_append_right _ _
  | unanswered => exact List.nil_sublist _
  | completed _ hall =>
    rw [records_append]
    exact hall.ranRecords_sublist.trans (List.sublist_append_right _ _)
  | failed _ _ hbefore =>
    simp only [records_append]
    exact (hbefore.ranRecords_sublist.append (List.sublist_append_right _ _)).trans
      (List.sublist_append_right _ _)
  | escaped _ _ hbefore =>
    simp only [records_append]
    exact (hbefore.ranRecords_sublist.trans (List.sublist_append_left _ _)).trans
      (List.sublist_append_right _ _)

/-- If nobody else records anything there is nothing else. -/
theorem records_eq (hsilent : d.Silent others) : records xs = own := by
  cases h with
  | refused =>
    rw [records_append, hsilent.heard]
    rfl
  | unanswered => exact hsilent.heard _ _
  | completed _ hall =>
    rw [records_append, hsilent.heard, hall.records_eq hsilent]
    rfl
  | failed _ _ hbefore hc =>
    simp only [records_append]
    rw [hsilent.heard, hbefore.records_eq hsilent, hsilent.runner _ _ _ _ _ hc]
    rfl
  | escaped _ _ hbefore hc =>
    simp only [records_append]
    rw [hsilent.heard, hbefore.records_eq hsilent, hsilent.runner _ _ _ _ _ hc]
    exact List.append_nil _

/-- **What the records of a run tell about it.** -/
theorem audit : Audit d others cs desk k stop r own xs where
  ran := h.filter_debug
  below := h.le_length
  complete := h.eq_length_iff
  unstopped hgrants := h.eq_length_iff_of_grants hgrants
  stopped _ hstop := h.stops hstop
  warned := h.exists_warning_iff
  erred := h.exists_error_iff
  escaped _ _ hstop he := h.escapes hstop he
  unanswered hraises := h.eq_nil_of_raises hraises
  accounted := h.accounted
  tells _ hn hlevel := h.tells hn hlevel
  shown := h.own_sublist
  alone hsilent := h.records_eq hsilent

end Trail

end Trails

/-- **The records alone tell which commands have been completed**, whatever the tables and the
sequences are. -/
theorem Audit.completed_unique {ρ' : Type} {d : Dispatcher ρ} {d' : Dispatcher ρ'}
    {others : Desk ρ → Desk ρ → Prop} {others' : Desk ρ' → Desk ρ' → Prop} {cs cs' : List Command}
    {desk : Desk ρ} {desk' : Desk ρ'} {k k' : Nat} {stop stop' : Option Failure}
    {r r' : Except Failure Nat} {own : List Log.Notice} {xs xs' : List Signal}
    (h : Audit d others cs desk k stop r own xs)
    (h' : Audit d' others' cs' desk' k' stop' r' own xs') :
    k = k' ∧ (cs.take k).map (fun c => (c.method, c.name))
      = (cs'.take k').map fun c => (c.method, c.name) := by
  have hsame := eq_of_ranRecords_eq (h.ran.symm.trans h'.ran)
  have hlength := congrArg List.length hsame
  rw [List.length_map, List.length_map, List.length_take_of_le h.below,
    List.length_take_of_le h'.below] at hlength
  exact ⟨hlength, hsame⟩

/-! ## Runs -/

/-- What follows a run of the pending commands: they are cleared if it has succeeded. -/
def cleared : Except Failure Nat → Desk ρ → Desk ρ
  | .ok _, desk => { desk with pending := [] }
  | .error _, desk => desk

/-- What comes of a sequence that a task runs from a desk, with what the task does at the end. -/
structure AuditTrail (d : Dispatcher ρ) (cs : List Command) (desk : Desk ρ)
    (task : Task (Desk ρ) Nat) (after : Except Failure Nat → Desk ρ → Desk ρ) : Prop where
  /-- The task leaves a trail, whatever others do meanwhile, and every trail is possible. -/
  trail : ∀ others r desk' xs, Task.Shows others task desk r desk' xs
    ↔ ∃ k stop own left, Trail d others cs desk k stop r left own xs ∧ desk' = after r left
  /-- It does end if nothing holds it up. -/
  settles : ∀ others, IsPreorder others → ∃ r desk' xs, Task.Shows others task desk r desk' xs
  /-- What the trail tells. -/
  audit : ∀ others k stop r left own xs, Trail d others cs desk k stop r left own xs →
    Audit d others cs desk k stop r own xs
  /-- The records of two runs are the same only if the same commands have been completed. -/
  unique : ∀ others k stop r left own xs, Trail d others cs desk k stop r left own xs →
    ∀ (d' : Dispatcher ρ) others' cs' desk' k' stop' r' left' xs',
    Trail d' others' cs' desk' k' stop' r' left' own xs' →
    k = k' ∧ (cs.take k).map (fun c => (c.method, c.name))
      = (cs'.take k').map fun c => (c.method, c.name)

section Tasks

variable {d : Dispatcher ρ} {others : Desk ρ → Desk ρ → Prop} {desk desk' : Desk ρ}
  {r : Except Failure Nat} {xs : List Signal}

/-- A task whose ends are those of a run leaves its audit trail, whatever becomes of the desk
behind. -/
theorem AuditTrail.of_trail {cs : List Command} {task : Task (Desk ρ) Nat}
    {after : Except Failure Nat → Desk ρ → Desk ρ}
    (h : ∀ others r desk' xs, Task.Shows others task desk r desk' xs
      ↔ ∃ k stop own left, Trail d others cs desk k stop r left own xs ∧ desk' = after r left) :
    AuditTrail d cs desk task after where
  trail := h
  settles := by
    intro others hothers
    obtain ⟨xs, hxs⟩ := (Task.Ends.whole hothers task desk).shows
    exact ⟨_, _, xs, hxs⟩
  audit := by
    intro others k stop r left own xs htrail
    exact htrail.audit
  unique := by
    intro others k stop r left own xs htrail d' others' cs' desk' k' stop' r' left' xs' htrail'
    exact htrail.audit.completed_unique htrail'.audit

theorem runPending_shows_iff : Task.Shows others d.runPending desk r desk' xs
    ↔ Task.Shows others (d.run desk.pending) desk r desk' xs := Iff.rfl

theorem runOnce_shows_iff : Task.Shows others d.runOnce desk r desk' xs
    ↔ ∃ left, Task.Shows others d.runPending desk r left xs ∧ desk' = cleared r left := by
  rw [runOnce_eq, Task.Shows.bind_iff]
  constructor
  · rintro (⟨count, left, ys, _, hrun, ⟨rfl, rfl, rfl⟩, rfl⟩ | ⟨e, rfl, hrun⟩)
    · rw [List.append_nil]
      exact ⟨left, hrun, rfl⟩
    · exact ⟨desk', hrun, rfl⟩
  · rintro ⟨left, hrun, rfl⟩
    cases r with
    | ok count =>
      exact .inl ⟨count, left, xs, [], hrun, ⟨rfl, rfl, rfl⟩, (List.append_nil _).symm⟩
    | error e => exact .inr ⟨e, rfl, hrun⟩

/-- **The records of a run are an audit trail**, whether commands are given, or the pending ones are
run or run once. -/
theorem run_leaves_audit_trail (d : Dispatcher ρ) (desk : Desk ρ) :
    (∀ cs, AuditTrail d cs desk (d.run cs) fun _ left => left)
      ∧ AuditTrail d desk.pending desk d.runPending (fun _ left => left)
      ∧ AuditTrail d desk.pending desk d.runOnce cleared := by
  have hrun (cs : List Command) (others : Desk ρ → Desk ρ → Prop) (r : Except Failure Nat)
      (desk' : Desk ρ) (xs : List Signal) : Task.Shows others (d.run cs) desk r desk' xs
        ↔ ∃ k stop own left, Trail d others cs desk k stop r left own xs ∧ desk' = left := by
    simp only [run_shows_iff, exists_eq_right']
  refine ⟨fun cs => .of_trail (hrun cs), .of_trail (hrun desk.pending), .of_trail ?_⟩
  intro others r desk' xs
  rw [runOnce_shows_iff]
  simp only [runPending_shows_iff, run_shows_iff]
  constructor
  · rintro ⟨left, ⟨k, stop, own, htrail⟩, rfl⟩
    exact ⟨k, stop, own, left, htrail, rfl⟩
  · rintro ⟨k, stop, own, left, htrail, rfl⟩
    exact ⟨left, ⟨k, stop, own, htrail⟩, rfl⟩

end Tasks

/-- The first of three commands is completed and the second one fails; there is no record of the
third. -/
theorem second_of_three_recorded :
    Task.Shows Eq (countingToOne.run [⟨"e:run", "a", []⟩, ⟨"e:run", "b", []⟩, ⟨"e:run", "c", []⟩])
      ⟨[], 0⟩
      (.error (.causedBy (.command ⟨.execution "b" "no", place ⟨"e:run", "b", []⟩ 1⟩)
        (.of (.raised .runtime "no"))))
      ⟨[], 1⟩
      [.notice (ranRecord ⟨"e:run", "a", []⟩ 0),
        .notice (failureRecord ⟨"e:run", "b", []⟩ 1 (.of (.raised .runtime "no")))] := by
  have hgrants : countingToOne.Grants
      [⟨"e:run", "a", []⟩, ⟨"e:run", "b", []⟩, ⟨"e:run", "c", []⟩] 0 := ⟨rfl, rfl, rfl, trivial⟩
  have hrunner : Task.Shows Eq (countingToOne.runner ⟨"e:run", "a", []⟩) ⟨[], 0⟩ (.ok .null)
      ⟨[], 1⟩ [] := ⟨rfl, rfl, rfl⟩
  have hfirst : Recorded countingToOne Eq 0 [⟨"e:run", "a", []⟩] ⟨[], 0⟩ ⟨[], 1⟩
      [.notice (ranRecord ⟨"e:run", "a", []⟩ 0)] := .cons hrunner (.nil _ _)
  have hsecond : Task.Shows Eq (countingToOne.runner ⟨"e:run", "b", []⟩) ⟨[], 1⟩
      (.error (.of (.raised .runtime "no"))) ⟨[], 1⟩ [] := ⟨rfl, rfl, rfl⟩
  have hwraps : Wraps ⟨"e:run", "b", []⟩ 1 (.of (.raised .runtime "no"))
      (.causedBy (.command ⟨.execution "b" "no", place ⟨"e:run", "b", []⟩ 1⟩)
        (.of (.raised .runtime "no"))) := ⟨rfl, rfl, rfl⟩
  -- what comes before the failing command and behind it cannot be guessed
  have hfailed := @Trail.failed Nat countingToOne Eq
    [⟨"e:run", "a", []⟩, ⟨"e:run", "b", []⟩, ⟨"e:run", "c", []⟩] ⟨[], 0⟩ [⟨"e:run", "a", []⟩]
    ⟨"e:run", "b", []⟩ [⟨"e:run", "c", []⟩] _ _ ⟨[], 1⟩ ⟨[], 1⟩ _ _ hgrants rfl hfirst hsecond rfl
    hwraps
  exact (((run_leaves_audit_trail countingToOne ⟨[], 0⟩).1 _).trail Eq _ _ _).mpr
    ⟨1, _, _, _, hfailed, rfl⟩

/-- What a runner raises without leaving a record, by the name of its command: it ends the program,
its text cannot be made, or it is cancelled. -/
def hiddenFailure (name : Text) : Failure :=
  if name = "exiting" then .of (.raised .exit "1")
  else if name = "textless" then .of (.textless .general (.of (.raised .runtime "no text")))
  else .of (.raised .cancelled "stop")

/-- A dispatcher with one family. Its runners can count to one only and raise something then, and
its safety checks fail at two. -/
def unrecording : Dispatcher Nat :=
  { table := [("e:run", {
      run := fun name _ => Task.get.bind fun desk =>
        if desk.host = 0 then (Task.modify fun desk => { desk with host := 1 }).bind fun _ =>
          .done (.ok .null)
        else Task.fail (hiddenFailure name)
      isSafe := fun _ => Act.get >>= fun n =>
        if n = 2 then Act.fail (.of (.raised .runtime "down")) else pure true })]
    sink := none }

/-- The record of the first of two commands is neither that of a refusal nor that of a failure, nor
all records that there have to be. -/
theorem not_accounted_of_first (c c' : Command) : ¬Accounted [c, c'] [ranRecord c 0] := by
  rintro (⟨c, position, refusal, -, h⟩ | ⟨c, k, e, -, h⟩ | h)
  · cases congrArg (List.map Log.Notice.level) h
  · have hlast := congrArg (fun own => (own.map Log.Notice.level).getLast?) h
    simp only [List.map_append, List.map_cons, List.map_nil, List.getLast?_concat] at hlast
    cases hlast
  · cases congrArg List.length h

/-- The second of two commands is cancelled, ends the program, or raises an error whose text cannot
be made. The records do not tell, and no account of the commands is like them. It is the same when a
safety check fails. -/
theorem hidden_ends_unaccounted :
    (Task.Shows Eq (unrecording.run [⟨"e:run", "a", []⟩, ⟨"e:run", "b", []⟩]) ⟨[], 0⟩
        (.error (.of (.raised .cancelled "stop"))) ⟨[], 1⟩
        [.notice (ranRecord ⟨"e:run", "a", []⟩ 0)]
      ∧ ¬Accounted [⟨"e:run", "a", []⟩, ⟨"e:run", "b", []⟩]
        (records [.notice (ranRecord ⟨"e:run", "a", []⟩ 0)]))
    ∧ (Task.Shows Eq (unrecording.run [⟨"e:run", "a", []⟩, ⟨"e:run", "exiting", []⟩]) ⟨[], 0⟩
        (.error (.of (.raised .exit "1"))) ⟨[], 1⟩ [.notice (ranRecord ⟨"e:run", "a", []⟩ 0)]
      ∧ ¬Accounted [⟨"e:run", "a", []⟩, ⟨"e:run", "exiting", []⟩]
        (records [.notice (ranRecord ⟨"e:run", "a", []⟩ 0)]))
    ∧ (Task.Shows Eq (unrecording.run [⟨"e:run", "a", []⟩, ⟨"e:run", "textless", []⟩]) ⟨[], 0⟩
        (.error (.of (.raised .runtime "no text"))) ⟨[], 1⟩
        [.notice (ranRecord ⟨"e:run", "a", []⟩ 0)]
      ∧ ¬Accounted [⟨"e:run", "a", []⟩, ⟨"e:run", "textless", []⟩]
        (records [.notice (ranRecord ⟨"e:run", "a", []⟩ 0)]))
    ∧ Task.Shows Eq (unrecording.run [⟨"e:run", "a", []⟩]) ⟨[], 2⟩
        (.error (.of (.raised .runtime "down"))) ⟨[], 2⟩ []
      ∧ ¬Accounted [⟨"e:run", "a", []⟩] (records []) := by
  refine ⟨⟨⟨[], rfl, rfl, rfl, rfl⟩, not_accounted_of_first _ _⟩,
    ⟨⟨[], rfl, rfl, rfl, rfl⟩, not_accounted_of_first _ _⟩,
    ⟨⟨[], rfl, rfl, rfl, rfl⟩, not_accounted_of_first _ _⟩, ⟨rfl, rfl, rfl⟩, ?_⟩
  rintro (⟨c, position, refusal, -, h⟩ | ⟨c, k, e, -, h⟩ | h)
  · cases h
  · exact absurd h.symm (List.append_ne_nil_of_right_ne_nil _ (List.cons_ne_nil _ _))
  · cases congrArg List.length h

end Deeplink.Dispatcher

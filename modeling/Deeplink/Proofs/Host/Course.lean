import Deeplink.Proofs.Dispatch.Course
import Deeplink.Proofs.Host.Registered
import Deeplink.Proofs.Text.Scalar

/-!
# The course of a run of handlers

As long as nobody changes what is registered, it is known beforehand which handlers a run calls, and
in which order; only their results are not.

- `Host.invocation?`: the call of the handler of a command.
- `Host.Runs`: what comes of one command: the result, and the call that has been made.
- `Host.Completed`: commands that have been run one after the other, all of them with success.
- `Host.Course`: what comes of a sequence: it is refused, it fails at a command, or it is completed.
- `Host.course_of_run`: each run has one of these courses.
-/

namespace Deeplink.Host

open Dispatcher (rejection breakdown)

variable {η μ ν : Type}

/-! ## What is registered -/

/-- The same commands and routes are registered. -/
def SameTables (h : Host η μ) (h' : Host η ν) : Prop :=
  h'.registry = h.registry ∧ h'.routes.entries = h.routes.entries

/-- On a desk, they are. -/
def SameTablesOn (desk desk' : Desk (Host η μ)) : Prop := SameTables desk.host desk'.host

/-- They are, and no handlers are called. -/
def Quiet (desk desk' : Desk (Host η (Noted η μ))) : Prop :=
  SameTablesOn desk desk' ∧ events desk' = events desk

theorem Quiet.isPreorder : IsPreorder (Quiet (η := η) (μ := μ)) where
  refl _ := ⟨⟨rfl, rfl⟩, rfl⟩
  trans h h' := ⟨⟨h'.1.1.trans h.1.1, h'.1.2.trans h.1.2⟩, h'.2.trans h.2⟩

/-- What is asked of handlers: they leave alone what is registered, and they fail only with failures
that are caught and have texts, and these texts have no surrogates. -/
structure Behaved (call : Call η μ) : Prop where
  tables : ∀ handler args, (call handler args).Keeps SameTablesOn
  failures : ∀ handler args, (call handler args).FailsOnly fun e =>
    e.escaping? = none ∧ e.message.isScalar = true

/-! ## Courses -/

/-- The call of the handler of a command, if there is a handler. -/
def invocation? (s : Settings) (h : Host η μ) (c : Command) : Option (Invocation η) :=
  if c.method = s.routeMethod then
    (h.routes.get? c.name).join.map fun handler => ⟨.route, c.name, handler, c.args⟩
  else (h.registry.get? c.name).map fun r => ⟨.command, c.name, r.handler, c.args⟩

/-- What comes of one command: its result, and the call of its handler. -/
inductive Runs (s : Settings) (h : Host η μ) (c : Command) :
    Except Failure Json → List (Event η) → Prop where
  /-- The handler is called, and its result is that of the command. -/
  | called {i : Invocation η} (hi : invocation? s h c = some i) (r : Except Failure Json) :
      Runs s h c r [.began i, .ended i r]
  /-- There is no handler to be called for a route that has none. -/
  | bare (hroute : c.method = s.routeMethod) (hname : h.routes.get? c.name = some none) :
      Runs s h c (.ok .null) []
  /-- A route that is not registered cannot be visited. -/
  | missing (hroute : c.method = s.routeMethod) (hname : h.routes.get? c.name = none) :
      Runs s h c (.error (unknown "Route" c.name)) []

/-- Commands that have been run one after the other, all of them with success. -/
inductive Completed (s : Settings) (h : Host η μ) : List Command → List (Event η) → Prop where
  | nil : Completed s h [] []
  | cons {c : Command} {cs : List Command} {v : Json} {es es' : List (Event η)}
      (hc : Runs s h c (.ok v) es) (hcs : Completed s h cs es') :
      Completed s h (c :: cs) (es ++ es')

section Runs

variable {s : Settings} {h : Host η μ} {c : Command} {cs : List Command} {v : Json} {e : Failure}
  {es : List (Event η)}

/-- A route that has been visited is registered. -/
theorem Runs.isRegistered (hruns : Runs s h c (.ok v) es) (hroute : c.method = s.routeMethod) :
    h.routes.isRegistered c.name = true := by
  cases hruns with
  | called hi =>
    rw [invocation?, if_pos hroute] at hi
    unfold RouteTable.isRegistered
    cases hname : h.routes.get? c.name with
    | none =>
      rw [hname] at hi
      cases hi
    | some handler => rfl
  | bare _ hname => rw [RouteTable.isRegistered, hname, Option.isSome_some]

/-- If a command succeeds, its handler has not failed. -/
theorem Runs.not_failed (hruns : Runs s h c (.ok v) es) (i : Invocation η) (e : Failure) :
    Event.ended i (.error e) ∉ es := by
  cases hruns with
  | called hi => simp
  | bare _ _ => simp

/-- If a command fails, its handler has failed, or it is a route that is not registered. -/
theorem Runs.failed (hruns : Runs s h c (.error e) es) :
    (∃ i, Event.ended i (.error e) ∈ es)
      ∨ c.method = s.routeMethod ∧ h.routes.isRegistered c.name = false := by
  cases hruns with
  | @called i hi => exact .inl ⟨i, by simp⟩
  | missing hroute hname =>
    refine .inr ⟨hroute, ?_⟩
    rw [RouteTable.isRegistered, hname, Option.isSome_none]

theorem Completed.isRegistered (hcs : Completed s h cs es) :
    ∀ c ∈ cs, c.method = s.routeMethod → h.routes.isRegistered c.name = true := by
  induction hcs with
  | nil => simp
  | cons hc _ ih => exact List.forall_mem_cons.mpr ⟨hc.isRegistered, ih⟩

theorem Completed.not_failed (hcs : Completed s h cs es) (i : Invocation η) (e : Failure) :
    Event.ended i (.error e) ∉ es := by
  induction hcs with
  | nil => simp
  | cons hc _ ih =>
    rw [List.mem_append]
    rintro (hmem | hmem)
    · exact hc.not_failed i e hmem
    · exact ih hmem

end Runs

/-- What comes of a sequence of commands: the result, and the calls of handlers. -/
inductive Course (s : Settings) (h : Host η μ) (cs : List Command) :
    Except Failure Nat → List (Event η) → Prop where
  /-- The first command that may not run is refused, and nothing is called. -/
  | refused {before : List Command} {c : Command} {after : List Command}
      (hcs : cs = before ++ c :: after) (hbefore : ∀ b ∈ before, Permits s h.registry b)
      (hc : ¬ Permits s h.registry c) :
      Course s h cs (.error (rejection c before.length (refusalOf s c))) []
  /-- All may run, and one of them fails; those before it have been completed. -/
  | failed {before : List Command} {c : Command} {after : List Command} {e : Failure}
      {es es' : List (Event η)} (hpermits : ∀ c ∈ cs, Permits s h.registry c)
      (hcs : cs = before ++ c :: after) (hbefore : Completed s h before es)
      (hc : Runs s h c (.error e) es') (he : c.name.isScalar = true → e.message.isScalar = true) :
      Course s h cs (.error (breakdown c before.length e)) (es ++ es')
  /-- All may run, and all are completed. -/
  | succeeded {es : List (Event η)} (hpermits : ∀ c ∈ cs, Permits s h.registry c)
      (hcs : Completed s h cs es) : Course s h cs (.ok cs.length) es

/-! ## How runs end -/

section Ends

variable {call : Call η μ} {s : Settings} {sink : Option (Sink (Host η μ))} {h : Host η ν}
  {others : Desk (Host η (Noted η μ)) → Desk (Host η (Noted η μ)) → Prop}
  {desk desk' : Desk (Host η (Noted η μ))}

/-- What comes of a command, as it is seen on the desk behind it. -/
structure Ran (s : Settings) (h : Host η ν) (c : Command) (desk : Desk (Host η (Noted η μ)))
    (r : Except Failure Json) (desk' : Desk (Host η (Noted η μ))) : Prop where
  runs : ∃ es, Runs s h c r es ∧ events desk' = events desk ++ es
  tables : SameTablesOn desk desk'
  failure : ∀ e, r = .error e →
    e.escaping? = none ∧ (c.name.isScalar = true → e.message.isScalar = true)

variable (hcall : Behaved call) (hothers : ∀ {desk desk'}, others desk desk' → Quiet desk desk')

include hcall hothers

/-- The call of a handler, and its end, are noted. -/
theorem noting_ends {kind : Kind} {name : Text} {handler : η} {args : Args}
    {r : Except Failure Json}
    (hends : Task.Ends others (noting call kind name handler args) desk r desk') :
    events desk' = events desk
        ++ [.began ⟨kind, name, handler, args⟩, .ended ⟨kind, name, handler, args⟩ r]
      ∧ SameTablesOn desk desk'
      ∧ ∀ e, r = .error e → e.escaping? = none ∧ e.message.isScalar = true := by
  cases hends with
  | act hends =>
    have hends : Task.Ends others
        (((call handler args).focus (Desk.seen forget) rememberOn).attempt.bind fun r =>
          .act (note (.ended ⟨kind, name, handler, args⟩ r)) fun _ => .done r)
        (note (.began ⟨kind, name, handler, args⟩) desk) r desk' := hends
    obtain ⟨x, desk₁, hhandler, hnote⟩ := Task.Ends.attempt_bind_iff.mp hends
    -- the handler itself does not reach the events
    have hkeeps : ((call handler args).focus (Desk.seen forget) rememberOn).Keeps Quiet :=
      .focus (hcall.tables handler args) fun desk noted h => ⟨h, rfl⟩
    obtain ⟨htables, hevents⟩ := hhandler.keeps Quiet.isPreorder hothers hkeeps
    cases hnote with
    | act hdone =>
      cases hdone with
      | done =>
        refine ⟨?_, htables, ?_⟩
        · rw [events_note, hevents, events_note, List.append_assoc]
          rfl
        · rintro e rfl
          exact hhandler.failsOnly (hcall.failures handler args).focus

variable (htables : SameTables h desk.host)

include htables

theorem runCommand_ends {c : Command} (hne : c.method ≠ s.routeMethod)
    (hsafe : h.registry.isSafe c.name = true) {r : Except Failure Json}
    (hends : Task.Ends others (runCommand (noting call .command c.name) c.name c.args) desk r
      desk') : Ran s h c desk r desk' := by
  obtain ⟨reg, hreg, -⟩ := Registry.isSafe_eq_true_iff.mp hsafe
  have hends := Task.Ends.of_get_bind hends
  rw [htables.1, hreg] at hends
  cases hends with
  | emit hends =>
    have hi : invocation? s h c = some ⟨.command, c.name, reg.handler, c.args⟩ := by
      rw [invocation?, if_neg hne, hreg]
      rfl
    obtain ⟨hevents, hsame, hfailure⟩ := noting_ends hcall hothers hends
    refine ⟨⟨_, .called hi r, hevents⟩, hsame, fun e he => ?_⟩
    exact ⟨(hfailure e he).1, fun _ => (hfailure e he).2⟩

theorem navigate_ends {c : Command} (hroute : c.method = s.routeMethod) {r : Except Failure Json}
    (hends : Task.Ends others (navigate (noting call .route c.name) c.name c.args) desk r desk') :
    Ran s h c desk r desk' := by
  have hget : desk.host.routes.get? c.name = h.routes.get? c.name := by
    unfold RouteTable.get?
    rw [htables.2]
  have hends := Task.Ends.of_get_bind hends
  rw [hget] at hends
  cases hname : h.routes.get? c.name with
  | none =>
    rw [hname] at hends
    cases hends with
    | done =>
      refine ⟨⟨[], .missing hroute hname, (List.append_nil _).symm⟩, ⟨rfl, rfl⟩, ?_⟩
      rintro e ⟨⟩
      refine ⟨rfl, fun hscalar => ?_⟩
      show (CommandError.Cause.notFound "Route" c.name).message.isScalar = true
      simp only [CommandError.Cause.message, Text.isScalar_append, Text.isScalar_ofString, hscalar,
        Bool.and_self]
  | some found =>
    rw [hname] at hends
    cases found with
    | none =>
      -- nothing is called, and arriving changes the current route and the history only
      cases hends with
      | act hends =>
        cases hends with
        | emit hends =>
          cases hends with
          | done =>
            refine ⟨⟨[], .bare hroute hname, (List.append_nil _).symm⟩, ⟨rfl, rfl⟩, ?_⟩
            rintro e ⟨⟩
    | some handler =>
      have hi : invocation? s h c = some ⟨.route, c.name, handler, c.args⟩ := by
        rw [invocation?, if_pos hroute, hname]
        rfl
      rcases Task.Ends.of_bind hends with ⟨v, desk₁, hvisit, harrive⟩ | ⟨e, rfl, hvisit⟩
      · obtain ⟨hevents, hsame, -⟩ := noting_ends hcall hothers hvisit
        cases harrive with
        | act harrive =>
          cases harrive with
          | emit harrive =>
            cases harrive with
            | done =>
              refine ⟨⟨_, .called hi (.ok v), hevents⟩, hsame, ?_⟩
              rintro e ⟨⟩
      · obtain ⟨hevents, hsame, hfailure⟩ := noting_ends hcall hothers hvisit
        refine ⟨⟨_, .called hi (.error e), hevents⟩, hsame, fun e' he' => ?_⟩
        exact ⟨(hfailure e' he').1, fun _ => (hfailure e' he').2⟩

variable (hmethods : s.runMethod ≠ s.routeMethod)

include hmethods

/-- The family of a command that may run is that of its method. -/
theorem runner_ends {c : Command} (hc : Permits s h.registry c) {r : Except Failure Json}
    (hends : Task.Ends others ((noted call s sink).runner c) desk r desk') :
    Ran s h c desk r desk' := by
  unfold Dispatcher.runner at hends
  rcases hc with hroute | ⟨hrun, hsafe⟩
  · rw [hroute, noted_lookup_route hmethods] at hends
    exact navigate_ends hcall hothers htables hroute hends
  · rw [hrun, noted_lookup_run hmethods] at hends
    have hne : c.method ≠ s.routeMethod := by
      rw [hrun]
      exact hmethods
    exact runCommand_ends hcall hothers htables hne hsafe hends

/-- A command that may run succeeds or fails, and only its handler is called. -/
theorem runAt_ends {c : Command} (hc : Permits s h.registry c) {position : Nat}
    {x : Except Failure Unit}
    (hends : Task.Ends others ((noted call s sink).runAt c position) desk x desk') :
    ∃ r, Ran s h c desk r desk' ∧ x = match r with
      | .ok _ => .ok ()
      | .error e => .error (breakdown c position e) := by
  rw [Dispatcher.runAt_of_knows (knows_of_permits (noted_asksRegistry call sink hmethods) hc)]
    at hends
  obtain ⟨r, desk₁, hrunner, hsettle⟩ := Task.Ends.attempt_bind_iff.mp hends
  have hran := runner_ends hcall hothers htables hmethods hc hrunner
  obtain ⟨rfl, rfl⟩ := Dispatcher.settle_ends_iff.mp hsettle
  refine ⟨r, hran, ?_⟩
  cases r with
  | ok v => rfl
  | error e =>
    rw [Dispatcher.settled, (hran.failure e rfl).1]
    rfl

/-- **Commands that may run are completed one after the other, or one of them fails**, those before
it having been completed. -/
theorem runFrom_ends {cs : List Command} (hcs : ∀ c ∈ cs, Permits s h.registry c) {position : Nat}
    {x : Except Failure Unit}
    (hends : Task.Ends others ((noted call s sink).runFrom position cs) desk x desk') :
    ∃ es, events desk' = events desk ++ es
      ∧ (x = .ok () ∧ Completed s h cs es
        ∨ ∃ before c after e es₁ es₂, cs = before ++ c :: after ∧ Completed s h before es₁
          ∧ Runs s h c (.error e) es₂ ∧ (c.name.isScalar = true → e.message.isScalar = true)
          ∧ es = es₁ ++ es₂ ∧ x = .error (breakdown c (position + before.length) e)) := by
  induction cs generalizing position desk with
  | nil =>
    cases hends with
    | done => exact ⟨[], (List.append_nil _).symm, .inl ⟨rfl, .nil⟩⟩
  | cons c cs ih =>
    obtain ⟨hc, hcs⟩ := List.forall_mem_cons.mp hcs
    rcases Task.Ends.of_bind hends with ⟨u, desk₁, hfirst, hrest⟩ | ⟨e, rfl, hfirst⟩
    · obtain ⟨r, hran, hr⟩ := runAt_ends hcall hothers htables hmethods hc hfirst
      cases r with
      | error e => cases hr
      | ok v =>
        obtain ⟨es₀, hruns, hevents₀⟩ := hran.runs
        have htables₁ : SameTables h desk₁.host :=
          ⟨hran.tables.1.trans htables.1, hran.tables.2.trans htables.2⟩
        obtain ⟨es, hevents, hcourse⟩ := ih htables₁ hcs hrest
        refine ⟨es₀ ++ es, by rw [hevents, hevents₀, List.append_assoc], ?_⟩
        rcases hcourse with ⟨rfl, hall⟩ | ⟨before, c', after, e, es₁, es₂, rfl, hbefore, hc', he,
          rfl, rfl⟩
        · exact .inl ⟨rfl, .cons hruns hall⟩
        · refine .inr ⟨c :: before, c', after, e, es₀ ++ es₁, es₂, rfl, .cons hruns hbefore, hc',
            he, (List.append_assoc _ _ _).symm, ?_⟩
          -- one position more behind the command, one command less before it
          rw [List.length_cons, Nat.add_assoc, Nat.add_comm 1]
    · obtain ⟨r, hran, hr⟩ := runAt_ends hcall hothers htables hmethods hc hfirst
      cases r with
      | ok v => cases hr
      | error e' =>
        obtain ⟨es, hruns, hevents⟩ := hran.runs
        exact ⟨es, hevents, .inr ⟨[], c, cs, e', [], es, rfl, .nil, hruns,
          (hran.failure e' rfl).2, rfl, hr⟩⟩

omit htables h in
/-- **Each run of a sequence has a course.** -/
theorem course_of_run {cs : List Command} {x : Except Failure Nat}
    (hends : Task.Ends others ((noted call s sink).run cs) desk x desk') :
    ∃ es, events desk' = events desk ++ es ∧ Course s desk.host cs x es := by
  have hasks := noted_asksRegistry call sink hmethods
  rcases permits_or_first s desk.host.registry cs with hcs | ⟨before, c, after, hcs, hbefore, hc⟩
  · rcases Task.Ends.of_bind hends with ⟨u, desk₁, hvalidate, hrest⟩ | ⟨e, rfl, hvalidate⟩
    · obtain ⟨-, rfl⟩ := hvalidate.of_ofAct
      rw [Desk.onHost, Act.focus_apply, validate_of_permits hasks hcs] at hrest
      rcases Task.Ends.of_bind hrest with ⟨u', desk₂, hrun, hdone⟩ | ⟨e, rfl, hrun⟩
      · obtain ⟨es, hevents, hcourse⟩ :=
          runFrom_ends hcall hothers (h := desk.host) ⟨rfl, rfl⟩ hmethods hcs hrun
        cases hdone with
        | done =>
          rcases hcourse with ⟨-, hall⟩ | ⟨_, _, _, _, _, _, _, _, _, _, _, hx⟩
          · exact ⟨es, hevents, .succeeded hcs hall⟩
          · cases hx
      · obtain ⟨es, hevents, hcourse⟩ :=
          runFrom_ends hcall hothers (h := desk.host) ⟨rfl, rfl⟩ hmethods hcs hrun
        rcases hcourse with ⟨hx, -⟩ | ⟨before, c, after, e', es₁, es₂, hsplit, hbefore, hc, he, rfl,
          hx⟩
        · cases hx
        · obtain rfl := Except.error.inj hx
          rw [Nat.zero_add]
          exact ⟨_, hevents, .failed hcs hsplit hbefore hc he⟩
    · obtain ⟨hx, -⟩ := hvalidate.of_ofAct
      rw [Desk.onHost, Act.focus_apply, validate_of_permits hasks hcs] at hx
      cases hx
  · have hrefused : (noted call s sink).validate cs desk.host
        = ⟨.error (rejection c before.length (refusalOf s c)), desk.host,
          [Dispatcher.refusalNotice c before.length (refusalOf s c)]⟩ := by
      rw [hcs]
      exact validate_of_refused hasks hbefore hc
    rcases Task.Ends.of_bind hends with ⟨u, desk₁, hvalidate, -⟩ | ⟨e, rfl, hvalidate⟩
    · obtain ⟨hx, -⟩ := hvalidate.of_ofAct
      rw [Desk.onHost, Act.focus_apply, hrefused] at hx
      cases hx
    · obtain ⟨hx, rfl⟩ := hvalidate.of_ofAct
      rw [Desk.onHost, Act.focus_apply, hrefused] at hx ⊢
      obtain rfl := Except.error.inj hx
      exact ⟨[], (List.append_nil _).symm, .refused hcs hbefore hc⟩

end Ends

end Deeplink.Host

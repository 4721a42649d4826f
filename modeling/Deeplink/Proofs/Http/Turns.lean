import Deeplink.Proofs.Http.Exclusion
import Deeplink.Proofs.Http.Reports

/-!
# Turns

What one request does to the desk when it goes on, and what holds of a dispatch that is suspended.
Nobody else touches the desk until it has ended.

- `Http.Site.Underway`: a dispatch that has begun and is suspended.
- `Http.Site.Came`: a dispatch that has come some way. If it has ended with success and clears what
  is pending, it has run all of it.
- `Http.Site.mark?`: what a move decides about what is pending.
- `Http.Site.Turn`: a request is answered and leaves dispatches alone, or its own comes some way.
- `Http.Site.turn_of_fresh`, `Http.Site.turn_of_entered`: this is what every request does.
-/

namespace Deeplink.Http

variable {ρ : Type}

/-! ## Dispatches that are suspended -/

namespace Service

/-- The fragment that a request is taken with, if it is. -/
def taken? (s : Service ρ) (r : Request) (app : App ρ) : Option Text :=
  if app.isBusy then none
  else
    match ((s.framework.body r).fragment app.settings).result with
    | .ok (.ok hash) => some hash
    | _ => none

theorem taken?_eq_some_iff (s : Service ρ) {r : Request} {app : App ρ} {hash : Text} :
    s.taken? r app = some hash ↔ s.Takes r app hash := by
  unfold taken? Takes
  cases app.isBusy with
  | true => simp
  | false =>
    rcases ((s.framework.body r).fragment app.settings).result with e | (refusal | hash') <;> simp

/-- Whether a request asks for a run of what is pending. -/
def clears (r : Request) : Bool := Address.ofRequest r = .endpoint .runPending

theorem course_of_asks {s : Service ρ} (hs : s.dispatcher.LeavesPending) {r : Request}
    {t : Task (Desk ρ) Nat} (h : Asks s r t) : Dispatcher.Course (clears r) t := by
  cases h with
  | run hr hash =>
    have hclears : clears r = false := by rw [clears, hr]; rfl
    rw [hclears]
    exact Dispatcher.course_runFragment hs (some hash)
  | runPending hr =>
    have hclears : clears r = true := by rw [clears, hr]; rfl
    rw [hclears]
    exact Dispatcher.course_runOnce hs

/-- A request that leads to an endpoint is not answered when it arrives. -/
theorem respond_isDone (s : Service ρ) {r : Request} {e : Endpoint}
    (hr : Address.ofRequest r = .endpoint e) : (s.respond r).isDone = false := by
  rw [s.respond_eq hr, s.serve_eq]
  by_cases hrests : s.rests r e = true
  · rw [if_pos hrests]
    rfl
  · rw [if_neg hrests]
    cases e with
    | pending => exact absurd rfl hrests
    | runPending => exact absurd rfl hrests
    | _ => rfl

theorem respond_isDone_of_asks (s : Service ρ) {r : Request} {t : Task (Desk ρ) Nat}
    (h : Asks s r t) : (s.respond r).isDone = false := by
  cases h with
  | run hr hash => exact s.respond_isDone hr
  | runPending hr => exact s.respond_isDone hr

theorem eq_runOnce_of_asks {s : Service ρ} {r : Request} {t : Task (Desk ρ) Nat} (h : Asks s r t)
    (hclears : clears r = true) : t = s.dispatcher.runOnce := by
  cases h with
  | run hr hash =>
    rw [clears, hr] at hclears
    cases hclears
  | runPending hr => rfl

end Service

open Service (Asks Reports clears closing closed)

namespace Site

variable {s : Service ρ}

/-- The dispatch of the request at a position has begun at the first site and is suspended at the
second one. Nothing has happened to the desk since then but what the dispatch has done. -/
structure Underway (s : Service ρ) (begun site : Site ρ) (i : Nat) : Prop where
  left : ∃ x t u after, site.exchanges[i]? = some x ∧ x.task = closing u after
    ∧ Asks s.watched x.request t ∧ Reports after ∧ Dispatcher.Course (clears x.request) u
    ∧ u.Keeps Dispatcher.AddsCallsOn
    ∧ ∀ r desk', Task.Ends Eq u site.app.desk r desk' → Task.Ends Eq t begun.app.desk r desk'
  pending : site.app.desk.pending = begun.app.desk.pending
  adds : begun.app.desk.host.calls <+: site.app.desk.host.calls
  calls : callsOf site.log i
    = (site.app.desk.host.calls.drop begun.app.desk.host.calls.length).map (i, ·)

/-- What others do is nothing to it if they leave alone the desk. -/
theorem Underway.congr {begun site site' : Site ρ} {i : Nat} (h : Underway s begun site i)
    (hx : site'.exchanges[i]? = site.exchanges[i]?) (hdesk : site'.app.desk = site.app.desk)
    (hlog : callsOf site'.log i = callsOf site.log i) : Underway s begun site' i := by
  obtain ⟨hleft, hpending, hadds, hcalls⟩ := h
  refine ⟨?_, ?_, ?_, ?_⟩
  · rw [hx, hdesk]
    exact hleft
  · rw [hdesk]
    exact hpending
  · rw [hdesk]
    exact hadds
  · rw [hlog, hdesk]
    exact hcalls

/-- The dispatch of the request at a position, which has begun at the first site, has come some way.
If it has ended with success and asks for a run of what is pending, it has run what was pending when
it began. -/
structure Came (s : Service ρ) (begun site : Site ρ) (i : Nat) (x : Exchange ρ)
    (p : Task.Progress (App (Watched ρ)) Reply) : Prop where
  underway : p.task.isDone = false → Underway s begun (site.advance i x p) i
  pending : p.state.desk.pending
    = if clears x.request && (executed? p.task).isSome then [] else site.app.desk.pending
  ran : clears x.request = true → ∀ n, executed? p.task = some n →
    n = begun.app.desk.pending.length
      ∧ callsOf (site.advance i x p).log i
        = (Dispatcher.executed begun.app.desk.pending).map (i, ·)

theorem drop_append_drop {α : Type} {xs ys zs : List α} (h : xs <+: ys) (h' : ys <+: zs) :
    ys.drop xs.length ++ zs.drop ys.length = zs.drop xs.length := by
  obtain ⟨ys, rfl⟩ := h
  obtain ⟨zs, rfl⟩ := h'
  rw [List.drop_left, List.drop_left, List.append_assoc, List.drop_left]

/-- A dispatch has come as far as what it has done on the desk says. -/
theorem came_of_closes {begun site : Site ρ} {i : Nat} {x : Exchange ρ}
    (hx : site.exchanges[i]? = some x) (hpending : site.app.desk.pending = begun.app.desk.pending)
    (hadds : begun.app.desk.host.calls <+: site.app.desk.host.calls)
    (hcalls : callsOf site.log i
      = (site.app.desk.host.calls.drop begun.app.desk.host.calls.length).map (i, ·))
    {t : Task (Desk (Watched ρ)) Nat} (hasks : Asks s.watched x.request t)
    {after : Except Failure Nat → Task (App (Watched ρ)) Reply} (hafter : Reports after)
    {q : Task.Progress (Desk (Watched ρ)) Nat}
    (hq : Dispatcher.Spares (clears x.request) site.app.desk q)
    (hqcalls : Dispatcher.AddsCallsOn site.app.desk q.state ∧ q.task.Keeps Dispatcher.AddsCallsOn)
    (hends : ∀ r desk', Task.Ends Eq q.task q.state r desk' →
      Task.Ends Eq t begun.app.desk r desk')
    {p : Task.Progress (App (Watched ρ)) Reply} (hp : Service.Closes after q p) :
    Came s begun site i x p := by
  have hlog (hdesk : p.state.desk = q.state) : callsOf (site.advance i x p).log i
      = (q.state.host.calls.drop begun.app.desk.host.calls.length).map (i, ·) := by
    show callsOf (site.log ++ _) i = _
    rw [callsOf_append_self, hcalls, hdesk, ← List.map_append, drop_append_drop hadds hqcalls.1]
  cases hp with
  | left hdone htask hdesk =>
    -- what is left of the dispatch goes on later, from the desk that it leaves
    obtain ⟨hsame, hcourse⟩ := hq.2 hdone
    have hnone : executed? p.task = none := by
      rw [htask]
      exact executed?_eq_none (Service.closing_isDone q.task after)
    refine ⟨fun _ => ⟨⟨_, t, q.task, after, advance_self hx, htask, hasks, hafter, hcourse,
      hqcalls.2, ?_⟩, ?_, ?_, ?_⟩, ?_, fun _ n hn => ?_⟩
    · show ∀ r desk', Task.Ends Eq q.task p.state.desk r desk' → _
      rw [hdesk]
      exact hends
    · exact ((congrArg Desk.pending hdesk).trans hsame).trans hpending
    · show _ <+: p.state.desk.host.calls
      rw [hdesk]
      exact hadds.trans hqcalls.1
    · rw [hlog hdesk]
      show _ = (p.state.desk.host.calls.drop _).map _
      rw [hdesk]
    · rw [hdesk, hnone, Option.isSome_none, Bool.and_false]
      exact hsame
    · exact nomatch hnone.symm.trans hn
  | settled r hr hdone hdesk hreport =>
    refine ⟨fun h => ?_, ?_, fun hclears n hn => ?_⟩
    · exact nomatch hdone.symm.trans h
    · have hsome : (executed? p.task).isSome = r.isOk := by
        rw [hreport]
        cases r <;> rfl
      rw [hdesk, hsome]
      exact hq.1 r hr
    · -- it is one end of the whole run, whose calls are known
      obtain rfl : r = .ok n := by
        cases r with
        | error e => exact nomatch hreport.symm.trans hn
        | ok n' => exact congrArg Except.ok (Option.some.inj (hreport.symm.trans hn))
      rw [hr] at hends
      have hrun := hends (.ok n) q.state (.done _ _)
      rw [Service.eq_runOnce_of_asks hasks hclears] at hrun
      have hothers {desk desk' : Desk (Watched ρ)} (h : desk = desk') :
          Dispatcher.SameCalls desk desk' := by rw [h]; rfl
      obtain ⟨hcount, hall⟩ := Dispatcher.calls_of_runOnce (d := s.dispatcher) hothers hrun
      refine ⟨hcount, ?_⟩
      rw [hlog hdesk, hall, List.drop_left]

/-! ## One move -/

/-- What a move decides about what is pending, if it decides anything: a request to load a fragment
is taken, or a run of what is pending is reported as a success. -/
def mark? (s : Service ρ) (site : Site ρ) : Move → Option Pending.Mark
  | .arrive _ => none
  | .goOn i isOpen reach =>
    match site.exchanges[i]? with
    | none => none
    | some x =>
      match Address.ofRequest x.request with
      | .endpoint .load =>
        if x.hasEntered then none
        else (s.watched.taken? x.request site.app).map fun hash => .loaded (some hash)
      | .endpoint .runPending =>
        if x.task.isDone then none
        else (executed? (x.task.resume isOpen reach site.app).task).map fun _ => .cleared
      | _ => none

theorem step_goOn {site : Site ρ} {i : Nat} {x : Exchange ρ} (hx : site.exchanges[i]? = some x)
    (isOpen : Text → Bool) (reach : Task.Reach) : site.step s (.goOn i isOpen reach)
      = site.advance i x (x.task.resume isOpen reach site.app) := by
  simp only [step, hx]

section Mark

variable {site : Site ρ} {i : Nat} {x : Exchange ρ} (hx : site.exchanges[i]? = some x)
  (isOpen : Text → Bool) (reach : Task.Reach)

include hx

theorem mark?_of_load (hr : Address.ofRequest x.request = .endpoint .load)
    (hentered : x.hasEntered = false) :
    site.mark? s (.goOn i isOpen reach)
      = (s.watched.taken? x.request site.app).map fun hash => .loaded (some hash) := by
  simp only [mark?, hx, hr, hentered, Bool.false_eq_true, if_false]

theorem mark?_of_runPending (hr : Address.ofRequest x.request = .endpoint .runPending)
    (hdone : x.task.isDone = false) :
    site.mark? s (.goOn i isOpen reach)
      = (executed? (x.task.resume isOpen reach site.app).task).map fun _ => .cleared := by
  simp only [mark?, hx, hr, hdone, Bool.false_eq_true, if_false]

/-- Nothing is decided by a request that is answered already. -/
theorem mark?_of_done (hentered : x.hasEntered = true) (hdone : x.task.isDone = true) :
    site.mark? s (.goOn i isOpen reach) = none := by
  simp only [mark?, hx, hentered, hdone, if_true]
  split <;> rfl

/-- A dispatch decides only at the end of a run of what is pending. -/
theorem mark?_of_asks {t : Task (Desk (Watched ρ)) Nat} (hasks : Asks s.watched x.request t)
    (hdone : x.task.isDone = false) :
    site.mark? s (.goOn i isOpen reach)
      = if clears x.request && (executed? (x.task.resume isOpen reach site.app).task).isSome
        then some .cleared else none := by
  cases hasks with
  | run hr hash =>
    have hclears : clears x.request = false := by rw [clears, hr]; rfl
    simp only [mark?, hx, hr, hclears, Bool.false_and, Bool.false_eq_true, if_false]
  | runPending hr =>
    have hclears : clears x.request = true := by rw [clears, hr]; rfl
    rw [mark?_of_runPending hx isOpen reach hr hdone, hclears, Bool.true_and]
    cases executed? (x.task.resume isOpen reach site.app).task <;> rfl

end Mark

/-- What becomes of the desk when the request at a position goes on. Either the request is answered
at once and makes no calls, and if a dispatch is suspended meanwhile nothing is touched; or it is
the one whose dispatch, which has begun at the first site, is under way. -/
inductive Turn (s : Service ρ) (begun site : Site ρ) (i : Nat) (x : Exchange ρ)
    (p : Task.Progress (App (Watched ρ)) Reply) (mark : Option Pending.Mark) : Prop where
  | settled (hdone : p.task.isDone = true)
      (hcalls : p.state.desk.host.calls = site.app.desk.host.calls)
      (hpending : p.state.desk.pending
        = mark.elim site.app.desk.pending (Pending.Mark.commands s.dispatcher.methods))
      (hmark : mark ≠ some .cleared)
      (hreport : clears x.request = true → executed? p.task = none ∨ p.task = x.task)
      (hothers : ∀ j, j ≠ i → site.Dispatching s j → p.state.desk = site.app.desk)
  | dispatched (hlive : x.hasEntered = false ∨ site.Dispatching s i)
      (hpending : site.app.desk.pending = begun.app.desk.pending)
      (hmark : mark = if clears x.request && (executed? p.task).isSome then some .cleared else none)
      (hcame : Came s begun site i x p) (hothers : ∀ j, site.Dispatching s j → j = i)

theorem eq_isPreorder {σ : Type} : IsPreorder (Eq (α := σ)) where
  refl _ := rfl
  trans h h' := h.trans h'

section Turn

variable {site : Site ρ} {order : List Nat} {holder : Option Nat} {i : Nat} {x : Exchange ρ}
  (isOpen : Text → Bool) (reach : Task.Reach)

/-- Nothing is decided by a request that enters its endpoint and leaves the desk alone. -/
theorem mark?_of_aside (hx : site.exchanges[i]? = some x) (hentered : x.hasEntered = false)
    (htask : x.task = s.watched.respond x.request)
    (hload : Address.ofRequest x.request = .endpoint .load →
      ∀ hash, ¬ s.watched.Takes x.request site.app hash)
    (hreport : Address.ofRequest x.request = .endpoint .runPending →
      executed? (x.task.resume isOpen reach site.app).task = none) :
    site.mark? s (.goOn i isOpen reach) = none := by
  by_cases hr : Address.ofRequest x.request = .endpoint .load
  · have hnone : s.watched.taken? x.request site.app = none := by
      rw [Option.eq_none_iff_forall_ne_some]
      intro hash hsome
      exact hload hr hash (s.watched.taken?_eq_some_iff.mp hsome)
    rw [mark?_of_load hx isOpen reach hr hentered, hnone]
    rfl
  by_cases hr' : Address.ofRequest x.request = .endpoint .runPending
  · have hdone : x.task.isDone = false := by
      rw [htask]
      exact s.watched.respond_isDone hr'
    rw [mark?_of_runPending hx isOpen reach hr' hdone, hreport hr', Option.map_none]
  · simp only [mark?, hx]

/-- **A request that enters its endpoint.** -/
theorem turn_of_fresh (hs : s.watched.dispatcher.LeavesPending) (hsink : s.dispatcher.sink = none)
    (h : Invariant s site order holder) (hx : site.exchanges[i]? = some x)
    (hentered : x.hasEntered = false) :
    Turn s site site i x (x.task.resume isOpen reach site.app)
      (site.mark? s (.goOn i isOpen reach)) := by
  have htask := h.fresh i x hx hentered
  have hidle : site.app.isBusy = false → ∀ j, ¬ site.Dispatching s j := by
    intro hidle j hj
    have hbusy := h.busy_iff.mpr ⟨j, hj⟩
    rw [hidle] at hbusy
    cases hbusy
  have hwatched : s.watched.dispatcher.sink = none := by
    show s.dispatcher.sink.map _ = none
    rw [hsink]
    rfl
  have hcases := s.watched.entered (r := x.request) isOpen reach site.app hwatched
  rw [← htask] at hcases
  cases hcases with
  | aside hdone hdesk hload hreport =>
    have hmark := mark?_of_aside isOpen reach hx hentered htask hload hreport
    rw [hmark]
    refine .settled hdone (by rw [hdesk]) (by rw [hdesk]; rfl) (fun h => nomatch h) ?_
      fun _ _ _ => hdesk
    exact fun hclears => .inl (hreport (of_decide_eq_true hclears))
  | loaded hash hr htakes hdone hdesk =>
    have hmark : site.mark? s (.goOn i isOpen reach) = some (.loaded (some hash)) := by
      rw [mark?_of_load hx isOpen reach hr hentered, s.watched.taken?_eq_some_iff.mpr htakes]
      rfl
    rw [hmark]
    refine .settled hdone (by rw [hdesk]) ?_ (fun h => nomatch h) ?_ ?_
    · rw [hdesk]
      show Fragment.commands s.dispatcher.watched.methods (some hash) = _
      rw [s.dispatcher.watched_methods]
      rfl
    · intro hclears
      exact nomatch hr.symm.trans (of_decide_eq_true hclears)
    · intro j _ hj
      exact absurd hj (hidle htakes.1 j)
  | begun t after settings trace hbegun hasks hafter hp =>
    have hdone : x.task.isDone = false := by
      rw [htask]
      exact s.watched.respond_isDone_of_asks hasks
    -- the request has made no calls before
    have hi : i ∉ order := by
      intro hi
      obtain ⟨y, -, hy, hentered', -⟩ := h.begun i hi
      obtain rfl : x = y := Option.some.inj (hx.symm.trans hy)
      rw [hentered] at hentered'
      cases hentered'
    have hcalls : callsOf site.log i = (site.app.desk.host.calls.drop
        site.app.desk.host.calls.length).map (i, ·) := by
      rw [h.serial.callsOf_eq_nil hi, List.drop_length, List.map_nil]
    have hspares := (Service.course_of_asks hs hasks).work isOpen reach site.app.desk
    have hadds := (Service.asks_keeps hasks).work Dispatcher.AddsCallsOn.isPreorder isOpen reach
      site.app.desk
    have hends : ∀ r desk', Task.Ends Eq (t.work isOpen reach site.app.desk).task
        (t.work isOpen reach site.app.desk).state r desk' →
        Task.Ends Eq t site.app.desk r desk' :=
      fun r desk' h => h.work eq_isPreorder isOpen reach
    have hcloses := Service.closes hafter isOpen reach
      (Service.mark true { site.app with settings }) (t.work isOpen reach site.app.desk) trace
    refine .dispatched (.inl hentered) rfl (mark?_of_asks hx isOpen reach hasks hdone) ?_
      fun j hj => absurd hj (hidle hbegun j)
    rw [hp, Service.closing_work]
    exact came_of_closes hx rfl (List.prefix_refl _) hcalls hasks hafter hspares hadds hends hcloses

/-- **A request that has been entered**: its dispatch goes on, or it is answered already. -/
theorem turn_of_entered (h : Invariant s site order holder) (hx : site.exchanges[i]? = some x)
    (hentered : x.hasEntered = true) {begun : Site ρ}
    (hunderway : site.Dispatching s i → Underway s begun site i) :
    Turn s begun site i x (x.task.resume isOpen reach site.app)
      (site.mark? s (.goOn i isOpen reach)) := by
  by_cases hi : site.Dispatching s i
  · obtain ⟨⟨y, t, u, after, hy, htask, hasks, hafter, hcourse, hkeeps, hends⟩, hpending, hadds,
      hcalls⟩ := hunderway hi
    obtain rfl : x = y := Option.some.inj (hx.symm.trans hy)
    have hdone : x.task.isDone = false := by
      rw [htask]
      exact Service.closing_isDone u after
    have hspares := hcourse.resume isOpen reach site.app.desk
    have hqcalls := hkeeps.resume Dispatcher.AddsCallsOn.isPreorder isOpen reach site.app.desk
    have hqends : ∀ r desk', Task.Ends Eq (u.resume isOpen reach site.app.desk).task
        (u.resume isOpen reach site.app.desk).state r desk' →
        Task.Ends Eq t begun.app.desk r desk' :=
      fun r desk' h => hends r desk' (h.resume eq_isPreorder isOpen reach)
    have hcloses := Service.closes hafter isOpen reach site.app
      (u.resume isOpen reach site.app.desk) []
    rw [Task.Progress.behind_nothing, ← Service.closing_resume hcourse.isDone, ← htask] at hcloses
    refine .dispatched (.inr hi) hpending (mark?_of_asks hx isOpen reach hasks hdone) ?_
      fun j hj => h.unique hj hi
    exact came_of_closes hx hpending hadds hcalls hasks hafter hspares hqcalls hqends hcloses
  · -- what is over stays as it is
    have hholder : holder ≠ some i := fun hholder => hi ((h.dispatching_iff i).mpr hholder)
    have hdone := h.answered i x hx hentered hholder
    obtain ⟨r, hr⟩ := Task.eq_done_of_isDone hdone
    rw [mark?_of_done hx isOpen reach hentered hdone, hr]
    exact .settled rfl rfl rfl (fun h => nomatch h) (fun _ => .inr hr.symm) fun _ _ _ => rfl

end Turn

/-! ## What a turn does -/

namespace Turn

variable {begun site : Site ρ} {i : Nat} {x : Exchange ρ}
  {p : Task.Progress (App (Watched ρ)) Reply} {mark : Option Pending.Mark}

/-- The mark of a move says what is pending, and without one the same commands are. -/
theorem pending (h : Turn s begun site i x p mark) : p.state.desk.pending
    = mark.elim site.app.desk.pending (Pending.Mark.commands s.dispatcher.methods) := by
  cases h with
  | settled _ _ hpending => exact hpending
  | dispatched _ _ hmark hcame =>
    rw [hmark, hcame.pending]
    split <;> rfl

/-- The dispatch of the request that goes on is under way if it is suspended again. -/
theorem underway (h : Turn s begun site i x p mark) (hx : site.exchanges[i]? = some x)
    (hi : (site.advance i x p).Dispatching s i) :
    (x.hasEntered = false ∨ site.Dispatching s i) ∧ Underway s begun (site.advance i x p) i := by
  obtain ⟨y, hy, -, hflight⟩ := hi
  obtain rfl := Option.some.inj ((advance_self hx).symm.trans hy)
  have hleft := hflight.isDone
  cases h with
  | settled hdone => exact nomatch hdone.symm.trans hleft
  | dispatched hlive _ _ hcame => exact ⟨hlive, hcame.underway hleft⟩

/-- Another dispatch that is suspended has been so before, and stays as it is. -/
theorem underway_of_ne (h : Turn s begun site i x p mark) {j : Nat} (hj : j ≠ i)
    (hflight : (site.advance i x p).Dispatching s j) : site.Dispatching s j
      ∧ ∀ begun', Underway s begun' site j → Underway s begun' (site.advance i x p) j := by
  obtain ⟨y, hy, hflight⟩ := hflight
  have hsame : (site.advance i x p).exchanges[j]? = site.exchanges[j]? := advance_of_ne hj.symm
  have hbefore : site.Dispatching s j := ⟨y, hsame.symm.trans hy, hflight⟩
  refine ⟨hbefore, fun begun' hunderway => ?_⟩
  cases h with
  | settled _ _ _ _ _ hothers =>
    exact hunderway.congr hsame (hothers j hj hbefore) (callsOf_append_of_ne site.log hj _)
  | dispatched _ _ _ _ hothers => exact absurd (hothers j hbefore) hj

/-- **What is cleared has been run**: all commands that are pending, and they have been pending
since the dispatch has begun. -/
theorem cleared (h : Turn s begun site i x p mark) (hmark : mark = some .cleared) :
    (x.hasEntered = false ∨ site.Dispatching s i)
      ∧ begun.app.desk.pending = site.app.desk.pending
      ∧ executed? p.task = some site.app.desk.pending.length
      ∧ callsOf (site.advance i x p).log i
        = (Dispatcher.executed site.app.desk.pending).map (i, ·) := by
  cases h with
  | settled _ _ _ hnot => exact absurd hmark hnot
  | dispatched hlive hpending hmark' hcame =>
    rw [hmark] at hmark'
    split at hmark'
    next hcleared =>
      rw [Bool.and_eq_true] at hcleared
      obtain ⟨n, hn⟩ := Option.isSome_iff_exists.mp hcleared.2
      obtain ⟨hcount, hcalls⟩ := hcame.ran hcleared.1 n hn
      rw [← hpending] at hcount hcalls
      exact ⟨hlive, hpending.symm, hcount ▸ hn, hcalls⟩
    next => cases hmark'

/-- A success is reported by a request that has been answered so before, and otherwise what is
pending is cleared. -/
theorem report (h : Turn s begun site i x p mark) (hclears : clears x.request = true) {n : Nat}
    (hn : executed? p.task = some n) :
    executed? x.task = some n ∧ callsOf (site.advance i x p).log i = callsOf site.log i
      ∨ mark = some .cleared := by
  cases h with
  | settled hdone hcalls _ _ hreport =>
    rcases hreport hclears with hnone | hsame
    · exact nomatch hnone.symm.trans hn
    · rw [hsame] at hn
      refine .inl ⟨hn, ?_⟩
      show callsOf (site.log ++ (p.state.desk.host.calls.drop _).map _) i = _
      rw [hcalls, List.drop_length, List.map_nil, List.append_nil]
  | dispatched _ _ hmark =>
    rw [hclears, hn] at hmark
    exact .inr hmark

end Turn

end Site

end Deeplink.Http

import Deeplink.Proofs.Http.Exclusive
import Mathlib.Data.List.Nodup

/-!
# One dispatch at a time

Any number of requests arrive in any order, and each of them goes on whenever it may, while the
others are suspended wherever they are. The requests are serialised by one lock (specification, 5).

- `Http.Site`: the application, the requests that have arrived, and all calls so far, each with the
  request that has made it.
- `Http.Site.step`: a request arrives, or one of them goes on until it is suspended again.
- `Http.Site.Invariant`: if a dispatch is under way, it is the last one that has begun, and every
  other request that has been entered is answered.
- `Http.Site.one_at_a_time`: what follows from it.
-/

namespace Deeplink.Http

variable {ρ : Type}

/-! ## Sites -/

/-- A request that has arrived, what is left of answering it, and whether it has gone on since. -/
structure Exchange (ρ : Type) where
  request : Request
  task : Task (App (Watched ρ)) Reply
  hasEntered : Bool

/-- The application, the requests in the order of their arrival, and the calls, each with the
position of the request that has made it. -/
structure Site (ρ : Type) where
  app : App (Watched ρ)
  exchanges : List (Exchange ρ) := []
  log : List (Nat × Call) := []

/-- What happens next: a request arrives, or the one at a position goes on. Which gates are open
then, and how far it goes, is left open. -/
inductive Move where
  | arrive (r : Request)
  | goOn (i : Nat) (isOpen : Text → Bool) (reach : Task.Reach)

namespace Site

/-- The site after the exchange at a position has come some way. -/
def advance (site : Site ρ) (i : Nat) (x : Exchange ρ)
    (p : Task.Progress (App (Watched ρ)) Reply) : Site ρ :=
  { app := p.state
    exchanges := site.exchanges.set i ⟨x.request, p.task, true⟩
    log := site.log
      ++ (p.state.desk.host.calls.drop site.app.desk.host.calls.length).map (i, ·) }

/-- One move. A request that arrives does nothing yet. -/
def step (s : Service ρ) (site : Site ρ) : Move → Site ρ
  | .arrive r => { site with exchanges := site.exchanges ++ [⟨r, s.watched.respond r, false⟩] }
  | .goOn i isOpen reach =>
    match site.exchanges[i]? with
    | none => site
    | some x => site.advance i x (x.task.resume isOpen reach site.app)

/-- The sites that come of an idle application on which no calls have been made. -/
inductive Reachable (s : Service ρ) : Site ρ → Prop where
  | start (app : App (Watched ρ)) (hidle : app.isBusy = false)
      (hcalls : app.desk.host.calls = []) : Reachable s { app }
  | step {site : Site ρ} (h : Reachable s site) (m : Move) : Reachable s (site.step s m)

/-- The dispatch of the request at a position has begun and has not ended. -/
def Dispatching (s : Service ρ) (site : Site ρ) (i : Nat) : Prop :=
  ∃ x, site.exchanges[i]? = some x ∧ x.hasEntered = true ∧ s.watched.InFlight x.request x.task

/-! ## Calls one dispatch after another -/

/-- The calls that the request at a position has made. -/
def callsOf (log : List (Nat × Call)) (i : Nat) : List (Nat × Call) :=
  log.filter fun entry => entry.1 = i

/-- First come all calls of the first request, then those of the second one, and so on. -/
def Serial (log : List (Nat × Call)) (order : List Nat) : Prop :=
  order.Nodup ∧ log = order.flatMap (callsOf log)

theorem callsOf_append_self (log : List (Nat × Call)) (i : Nat) (calls : List Call) :
    callsOf (log ++ calls.map (i, ·)) i = callsOf log i ++ calls.map (i, ·) := by
  rw [callsOf, List.filter_append]
  congr 1
  exact List.filter_eq_self.mpr (by simp)

theorem callsOf_append_of_ne (log : List (Nat × Call)) {i j : Nat} (h : j ≠ i)
    (calls : List Call) : callsOf (log ++ calls.map (i, ·)) j = callsOf log j := by
  rw [callsOf, List.filter_append]
  simp [List.filter_map, Function.comp_def, h.symm, callsOf]

/-- Only requests in the order have made calls. -/
theorem Serial.callsOf_eq_nil {log : List (Nat × Call)} {order : List Nat} (h : Serial log order)
    {i : Nat} (hi : i ∉ order) : callsOf log i = [] := by
  rw [callsOf, List.filter_eq_nil_iff]
  intro entry hentry
  rw [h.2] at hentry
  obtain ⟨j, hj, hentry⟩ := List.mem_flatMap.mp hentry
  have hentry : entry.1 = j := by simpa using List.of_mem_filter hentry
  simp only [decide_eq_true_eq]
  intro hi'
  exact hi (hi' ▸ hentry ▸ hj)

/-- A request that has made no calls may come last. -/
theorem Serial.concat {log : List (Nat × Call)} {order : List Nat} (h : Serial log order)
    {i : Nat} (hi : i ∉ order) : Serial log (order ++ [i]) := by
  refine ⟨List.nodup_append.mpr ⟨h.1, List.nodup_singleton i, ?_⟩, ?_⟩
  · rintro j hj k hk rfl
    exact hi (List.mem_singleton.mp hk ▸ hj)
  · rw [List.flatMap_append, List.flatMap_singleton, h.callsOf_eq_nil hi, List.append_nil, ← h.2]

/-- The last request may make more calls. -/
theorem Serial.more {log : List (Nat × Call)} {order : List Nat} {i : Nat}
    (h : Serial log (order ++ [i])) (calls : List Call) :
    Serial (log ++ calls.map (i, ·)) (order ++ [i]) := by
  refine ⟨h.1, ?_⟩
  have hi : i ∉ order := fun hi =>
    (List.nodup_append.mp h.1).2.2 i hi i (List.mem_singleton.mpr rfl) rfl
  have hbefore : order.flatMap (callsOf (log ++ calls.map (i, ·)))
      = order.flatMap (callsOf log) := by
    refine List.flatMap_congr fun j hj => callsOf_append_of_ne log ?_ calls
    rintro rfl
    exact hi hj
  have hlog := h.2
  rw [List.flatMap_append, List.flatMap_singleton] at hlog
  rw [List.flatMap_append, List.flatMap_singleton, hbefore, callsOf_append_self,
    ← List.append_assoc, ← hlog]

/-! ## The invariant -/

/-- What holds of every site that can be reached. `order` are the requests whose dispatches have
begun, in that order, and `holder` is the one whose dispatch is under way. -/
structure Invariant (s : Service ρ) (site : Site ρ) (order : List Nat) (holder : Option Nat) :
    Prop where
  serial : Serial site.log order
  calls : site.log.map (·.2) = site.app.desk.host.calls
  begun : ∀ i ∈ order, ∃ x t, site.exchanges[i]? = some x ∧ x.hasEntered = true
    ∧ Service.Asks s.watched x.request t
  fresh : ∀ (i : Nat) (x : Exchange ρ), site.exchanges[i]? = some x → x.hasEntered = false →
    x.task = s.watched.respond x.request
  answered : ∀ (i : Nat) (x : Exchange ρ), site.exchanges[i]? = some x → x.hasEntered = true →
    holder ≠ some i → x.task.isDone = true
  busy : site.app.isBusy = holder.isSome
  held : ∀ i, holder = some i → order.getLast? = some i ∧ site.Dispatching s i

variable {s : Service ρ} {site : Site ρ} {order : List Nat} {holder : Option Nat}

theorem Invariant.start {app : App (Watched ρ)} (hidle : app.isBusy = false)
    (hcalls : app.desk.host.calls = []) : Invariant s { app } [] none where
  serial := ⟨List.nodup_nil, rfl⟩
  calls := hcalls.symm
  begun _ hi := nomatch hi
  fresh _ _ hx := nomatch hx
  answered _ _ hx := nomatch hx
  busy := hidle
  held _ hi := nomatch hi

/-- An exchange is one of those before, or the new one, which has not been entered. -/
theorem old_or_new {r : Request} {i : Nat} {x : Exchange ρ}
    (hx : (site.step s (.arrive r)).exchanges[i]? = some x) :
    site.exchanges[i]? = some x ∨ x = ⟨r, s.watched.respond r, false⟩ := by
  rcases List.getElem?_append.symm.trans hx |> fun hx => ite_eq_iff.mp hx with hx | hx
  · exact .inl hx.2
  · exact .inr (List.mem_singleton.mp (List.mem_of_getElem? hx.2))

/-- A request that arrives is nothing to the others. -/
theorem Invariant.arrive (h : Invariant s site order holder) (r : Request) :
    Invariant s (site.step s (.arrive r)) order holder := by
  have hold : ∀ {i : Nat} {x : Exchange ρ}, site.exchanges[i]? = some x →
      (site.exchanges ++ [⟨r, s.watched.respond r, false⟩])[i]? = some x :=
    fun hx => List.getElem?_append_left (List.getElem?_eq_some_iff.mp hx).1 ▸ hx
  refine { h with begun := ?_, fresh := ?_, answered := ?_, held := ?_ }
  · intro i hi
    obtain ⟨x, t, hx, hentered⟩ := h.begun i hi
    exact ⟨x, t, hold hx, hentered⟩
  · intro i x hx hentered
    rcases old_or_new hx with hx | rfl
    · exact h.fresh i x hx hentered
    · rfl
  · intro i x hx hentered
    rcases old_or_new hx with hx | rfl
    · exact h.answered i x hx hentered
    · cases hentered
  · intro i hi
    obtain ⟨hlast, x, hx, hflight⟩ := h.held i hi
    exact ⟨hlast, x, hold hx, hflight⟩

section Advance

variable {i j : Nat} {x : Exchange ρ} {p : Task.Progress (App (Watched ρ)) Reply}

theorem advance_self (hx : site.exchanges[i]? = some x) :
    (site.advance i x p).exchanges[i]? = some ⟨x.request, p.task, true⟩ := by
  obtain ⟨hlt, -⟩ := List.getElem?_eq_some_iff.mp hx
  exact List.getElem?_set_self hlt

theorem advance_of_ne (h : i ≠ j) :
    (site.advance i x p).exchanges[j]? = site.exchanges[j]? :=
  List.getElem?_set_ne h

/-- What holds of the exchange that has gone on, and of the others as before, holds of each. -/
theorem forall_advance {P : Nat → Exchange ρ → Prop} (hx : site.exchanges[i]? = some x)
    (hself : P i ⟨x.request, p.task, true⟩)
    (hothers : ∀ j y, j ≠ i → site.exchanges[j]? = some y → P j y) :
    ∀ j y, (site.advance i x p).exchanges[j]? = some y → P j y := by
  intro j y hy
  by_cases hj : j = i
  · subst hj
    rw [advance_self hx] at hy
    exact Option.some.inj hy ▸ hself
  · rw [advance_of_ne (Ne.symm hj)] at hy
    exact hothers j y hj hy

/-- The calls that are added are those of the exchange that has gone on. -/
theorem advance_calls (hcalls : site.log.map (·.2) = site.app.desk.host.calls)
    (hadds : App.AddsCalls site.app p.state) :
    (site.advance i x p).log.map (·.2) = p.state.desk.host.calls := by
  obtain ⟨calls, hcalls'⟩ := hadds
  show (site.log ++ _).map _ = _
  rw [List.map_append, hcalls, ← hcalls', List.drop_left, List.map_map]
  simp [Function.comp_def]

/-- A request that is answered without a dispatch changes nothing about dispatches. -/
theorem Invariant.settle (h : Invariant s site order holder)
    (hx : site.exchanges[i]? = some x) (hi : holder ≠ some i)
    (hp : Service.Settles site.app p) : Invariant s (site.advance i x p) order holder := by
  obtain ⟨hdone, hbusy, hcalls⟩ := hp
  have hlog : (site.advance i x p).log = site.log := by
    show site.log ++ _ = _
    rw [hcalls, List.drop_length, List.map_nil, List.append_nil]
  refine ⟨?_, ?_, ?_, ?_, ?_, ?_, ?_⟩
  · rw [hlog]
    exact h.serial
  · rw [hlog]
    exact h.calls.trans hcalls.symm
  · intro j hj
    obtain ⟨y, t, hy, hentered, hasks⟩ := h.begun j hj
    by_cases hji : j = i
    · subst hji
      obtain rfl : x = y := Option.some.inj (hx.symm.trans hy)
      exact ⟨_, t, advance_self hx, rfl, hasks⟩
    · exact ⟨y, t, (advance_of_ne (Ne.symm hji)).trans hy, hentered, hasks⟩
  · exact forall_advance hx (fun hentered => nomatch hentered) fun j y _ hy => h.fresh j y hy
  · exact forall_advance hx (fun _ _ => hdone) fun j y _ hy => h.answered j y hy
  · exact hbusy.trans h.busy
  · intro j hj
    obtain ⟨hlast, y, hy, hflight⟩ := h.held j hj
    have hji : i ≠ j := fun hij => hi (hij ▸ hj)
    exact ⟨hlast, y, (advance_of_ne hji).trans hy, hflight⟩

/-- A request whose dispatch comes some way, if none but its own is under way. -/
theorem Invariant.dispatch (h : Invariant s site order holder)
    (hx : site.exchanges[i]? = some x) (hholder : ∀ j, holder = some j → j = i)
    {order' : List Nat} (hserial : Serial site.log (order' ++ [i]))
    (hsub : ∀ j ∈ order', j ∈ order) (hp : Service.Dispatches s.watched x.request site.app p) :
    ∃ holder', Invariant s (site.advance i x p) (order' ++ [i]) holder' := by
  obtain ⟨⟨t, hasks⟩, hadds, hend⟩ := hp
  have hbegun : ∀ j ∈ order' ++ [i], ∃ y t, (site.advance i x p).exchanges[j]? = some y
      ∧ y.hasEntered = true ∧ Service.Asks s.watched y.request t := by
    intro j hj
    by_cases hji : j = i
    · subst hji
      exact ⟨_, t, advance_self hx, rfl, hasks⟩
    · have hj : j ∈ order' := by simpa [hji] using hj
      obtain ⟨y, t, hy, hentered, hasks⟩ := h.begun j (hsub j hj)
      exact ⟨y, t, (advance_of_ne (Ne.symm hji)).trans hy, hentered, hasks⟩
  have hfresh : ∀ (j : Nat) (y : Exchange ρ), (site.advance i x p).exchanges[j]? = some y →
      y.hasEntered = false → y.task = s.watched.respond y.request :=
    forall_advance hx (fun hentered => nomatch hentered) fun j y _ hy => h.fresh j y hy
  have hothers : ∀ (j : Nat) (y : Exchange ρ), j ≠ i → site.exchanges[j]? = some y →
      y.hasEntered = true → y.task.isDone = true :=
    fun j y hji hy hentered => h.answered j y hy hentered fun hj => hji (hholder j hj)
  rcases hend with ⟨hdone, hidle⟩ | ⟨hflight, hbusy⟩
  · -- the dispatch has ended, and nobody holds the application
    refine ⟨none, hserial.more _, advance_calls h.calls hadds, hbegun, hfresh, ?_, hidle,
      fun j hj => nomatch hj⟩
    exact forall_advance hx (fun _ _ => hdone) fun j y hji hy hentered _ =>
      hothers j y hji hy hentered
  · -- it goes on later, and holds the application until then
    refine ⟨some i, hserial.more _, advance_calls h.calls hadds, hbegun, hfresh, ?_, hbusy, ?_⟩
    · exact forall_advance hx (fun _ hi => absurd rfl hi) fun j y hji hy hentered _ =>
        hothers j y hji hy hentered
    · intro j hj
      obtain rfl : i = j := Option.some.inj hj
      exact ⟨List.getLast?_concat, _, advance_self hx, rfl, hflight⟩

/-- A request that goes on for the first time enters its endpoint. -/
theorem Invariant.enter (h : Invariant s site order holder) (hx : site.exchanges[i]? = some x)
    (hentered : x.hasEntered = false) (isOpen : Text → Bool) (reach : Task.Reach) :
    ∃ order' holder',
      Invariant s (site.advance i x (x.task.resume isOpen reach site.app)) order' holder' := by
  have hholder : holder ≠ some i := by
    intro hi
    obtain ⟨-, y, hy, hentered', -⟩ := h.held i hi
    obtain rfl : x = y := Option.some.inj (hx.symm.trans hy)
    rw [hentered] at hentered'
    cases hentered'
  rw [h.fresh i x hx hentered]
  rcases Service.enter s x.request isOpen reach site.app with hp | ⟨hidle, hp⟩
  · exact ⟨order, holder, h.settle hx hholder hp⟩
  · -- the application is idle, so the new dispatch comes last in the order
    have hnone : holder = none := by
      rw [← Option.not_isSome_iff_eq_none, ← h.busy, hidle]
      exact Bool.false_ne_true
    have hi : i ∉ order := by
      intro hi
      obtain ⟨y, -, hy, hentered', -⟩ := h.begun i hi
      obtain rfl : x = y := Option.some.inj (hx.symm.trans hy)
      rw [hentered] at hentered'
      cases hentered'
    refine ⟨_, h.dispatch hx ?_ (h.serial.concat hi) (fun _ hj => hj) hp⟩
    exact fun j hj => nomatch hnone.symm.trans hj

/-- A request that has been entered goes on with its dispatch, or is answered already. -/
theorem Invariant.goOn (h : Invariant s site order holder) (hx : site.exchanges[i]? = some x)
    (hentered : x.hasEntered = true) (isOpen : Text → Bool) (reach : Task.Reach) :
    ∃ order' holder',
      Invariant s (site.advance i x (x.task.resume isOpen reach site.app)) order' holder' := by
  by_cases hi : holder = some i
  · obtain ⟨hlast, y, hy, -, hflight⟩ := h.held i hi
    obtain rfl : x = y := Option.some.inj (hx.symm.trans hy)
    obtain ⟨order', rfl⟩ := List.getLast?_eq_some_iff.mp hlast
    have hp := Service.goOn hflight isOpen reach (h.busy.trans (by rw [hi]; rfl))
    refine ⟨_, h.dispatch hx ?_ h.serial ?_ hp⟩
    · exact fun j hj => Option.some.inj (hj.symm.trans hi)
    · exact fun j hj => List.mem_append_left [i] hj
  · -- what is over stays as it is
    obtain ⟨r, hr⟩ := Task.eq_done_of_isDone (h.answered i x hx hentered hi)
    refine ⟨order, holder, h.settle hx hi ?_⟩
    rw [hr]
    exact ⟨rfl, rfl, rfl⟩

end Advance

/-- **One move keeps the invariant.** A request that goes on for the first time enters its endpoint;
the one whose dispatch is under way goes on with it; all others are answered already. -/
theorem Invariant.step (h : Invariant s site order holder) (m : Move) :
    ∃ order' holder', Invariant s (site.step s m) order' holder' := by
  cases m with
  | arrive r => exact ⟨order, holder, h.arrive r⟩
  | goOn i isOpen reach =>
    cases hx : site.exchanges[i]? with
    | none =>
      refine ⟨order, holder, ?_⟩
      simpa only [Site.step, hx] using h
    | some x =>
      simp only [Site.step, hx]
      cases hentered : x.hasEntered with
      | false => exact h.enter hx hentered isOpen reach
      | true => exact h.goOn hx hentered isOpen reach

/-- A request that goes on is nothing to the others. -/
theorem step_goOn_of_ne {i j : Nat} (h : j ≠ i) (isOpen : Text → Bool) (reach : Task.Reach) :
    (site.step s (.goOn i isOpen reach)).exchanges[j]? = site.exchanges[j]? := by
  cases hx : site.exchanges[i]? with
  | none => simp only [Site.step, hx]
  | some x =>
    simp only [Site.step, hx]
    exact advance_of_ne h.symm

/-- **The invariant holds of every site that can be reached.** -/
theorem Reachable.invariant (h : Reachable s site) :
    ∃ order holder, Invariant s site order holder := by
  induction h with
  | start app hidle hcalls => exact ⟨[], none, .start hidle hcalls⟩
  | step _ m ih =>
    obtain ⟨order, holder, ih⟩ := ih
    exact ih.step m

/-! ## One dispatch at a time -/

/-- What one dispatch at a time means for a site. -/
structure OneAtATime (s : Service ρ) (site : Site ρ) : Prop where
  /-- The application is marked as busy exactly if one dispatch is under way. -/
  busy_iff : site.app.isBusy = true ↔ ∃! i, site.Dispatching s i
  /-- There are never two. -/
  unique : ∀ i j, site.Dispatching s i → site.Dispatching s j → i = j
  /-- Nothing else can be suspended once it has been entered. -/
  answered : ∀ (i : Nat) (x : Exchange ρ), site.exchanges[i]? = some x → x.hasEntered = true →
    x.task.isDone = true ∨ site.Dispatching s i
  /-- What may not happen beside a dispatch is refused in one turn: it makes no calls, and it
  touches nothing but the settings, which may have to be built. -/
  refused : ∀ (i : Nat) (x : Exchange ρ), site.exchanges[i]? = some x → x.hasEntered = false →
    (∃ j, site.Dispatching s j) → s.Guarded x.request site.app.settings →
    ∀ isOpen reach, ∃ settings, site.step s (.goOn i isOpen reach) =
      { app := { site.app with settings }
        exchanges := site.exchanges.set i
          ⟨x.request, .done (.ok (s.conflictReply x.request)), true⟩
        log := site.log }
  /-- The application is idle again as soon as a dispatch has ended, in whatever way. -/
  released : ∀ (i : Nat) isOpen reach (x : Exchange ρ),
    (site.app.isBusy = false ∨ site.Dispatching s i) →
    (site.step s (.goOn i isOpen reach)).exchanges[i]? = some x → x.task.isDone = true →
    (site.step s (.goOn i isOpen reach)).app.isBusy = false
  /-- The log has all calls. -/
  calls : site.log.map (·.2) = site.app.desk.host.calls
  /-- Each dispatch has made all its calls before the next one makes any. -/
  serial : ∃ order, Serial site.log order
    ∧ ∀ i ∈ order, ∃ x t, site.exchanges[i]? = some x ∧ Service.Asks s.watched x.request t

/-- The dispatch under way is that of the holder. -/
theorem Invariant.dispatching_iff (h : Invariant s site order holder) (i : Nat) :
    site.Dispatching s i ↔ holder = some i := by
  constructor
  · rintro ⟨x, hx, hentered, hflight⟩
    by_contra hi
    have hdone := h.answered i x hx hentered hi
    rw [hflight.isDone] at hdone
    cases hdone
  · exact fun hi => (h.held i hi).2

theorem Invariant.busy_iff (h : Invariant s site order holder) :
    site.app.isBusy = true ↔ ∃ i, site.Dispatching s i := by
  rw [h.busy, Option.isSome_iff_exists]
  exact exists_congr fun i => (h.dispatching_iff i).symm

/-- There are never two dispatches under way. -/
theorem Invariant.unique (h : Invariant s site order holder) {i j : Nat}
    (hi : site.Dispatching s i) (hj : site.Dispatching s j) : i = j := by
  have hi := (h.dispatching_iff i).mp hi
  exact Option.some.inj (hi.symm.trans ((h.dispatching_iff j).mp hj))

/-- What may not happen beside a dispatch touches nothing but the settings. -/
theorem Invariant.refused (h : Invariant s site order holder) (hs : s.framework.Lawful)
    (hnow : s.now.isScalar = true) {i : Nat} {x : Exchange ρ} (hx : site.exchanges[i]? = some x)
    (hentered : x.hasEntered = false) (hflight : ∃ j, site.Dispatching s j)
    (hguarded : s.Guarded x.request site.app.settings)
    (isOpen : Text → Bool) (reach : Task.Reach) :
    ∃ settings, site.step s (.goOn i isOpen reach) =
      { app := { site.app with settings }
        exchanges := site.exchanges.set i
          ⟨x.request, .done (.ok (s.conflictReply x.request)), true⟩
        log := site.log } := by
  obtain ⟨settings, htask, hstate⟩ := s.watched.enter_refused hs hnow isOpen reach hguarded
    (h.busy_iff.mpr hflight)
  refine ⟨settings, ?_⟩
  simp only [Site.step, hx, h.fresh i x hx hentered, advance, htask, hstate, List.drop_length,
    List.map_nil, List.append_nil]
  rfl

/-- The end of a dispatch leaves the application idle. -/
theorem Invariant.released (h : Invariant s site order holder) (i : Nat) (isOpen : Text → Bool)
    (reach : Task.Reach) (x : Exchange ρ) (hi : site.app.isBusy = false ∨ site.Dispatching s i)
    (hx : (site.step s (.goOn i isOpen reach)).exchanges[i]? = some x)
    (hdone : x.task.isDone = true) :
    (site.step s (.goOn i isOpen reach)).app.isBusy = false := by
  obtain ⟨order', holder', h'⟩ := h.step (.goOn i isOpen reach)
  by_contra hbusy
  obtain ⟨j, y, hy, hentered, hflight⟩ := h'.busy_iff.mp (by simpa using hbusy)
  -- a dispatch that is under way now is not the one that has ended, so it was under way before
  have hji : j ≠ i := by
    rintro rfl
    obtain rfl : x = y := Option.some.inj (hx.symm.trans hy)
    rw [hflight.isDone] at hdone
    cases hdone
  have hj : site.Dispatching s j :=
    ⟨y, (step_goOn_of_ne hji isOpen reach).symm.trans hy, hentered, hflight⟩
  rcases hi with hidle | hi
  · rw [h.busy_iff.mpr ⟨j, hj⟩] at hidle
    cases hidle
  · exact hji (h.unique hj hi)

/-- **One dispatch at a time**, whatever requests arrive and in whatever order they go on. -/
theorem one_at_a_time (s : Service ρ) (hs : s.framework.Lawful) (hnow : s.now.isScalar = true)
    {site : Site ρ} (hsite : Reachable s site) : OneAtATime s site := by
  obtain ⟨order, holder, h⟩ := hsite.invariant
  refine ⟨?_, fun i j hi hj => h.unique hi hj, ?_, ?_, ?_, h.calls, order, h.serial, ?_⟩
  · rw [h.busy_iff]
    exact ⟨fun ⟨i, hi⟩ => ⟨i, hi, fun j hj => h.unique hj hi⟩, fun ⟨i, hi, _⟩ => ⟨i, hi⟩⟩
  · intro i x hx hentered
    by_cases hi : holder = some i
    · exact .inr (h.held i hi).2
    · exact .inl (h.answered i x hx hentered hi)
  · intro i x hx hentered hflight hguarded isOpen reach
    exact h.refused hs hnow hx hentered hflight hguarded isOpen reach
  · exact h.released
  · intro i hi
    obtain ⟨x, t, hx, -, hasks⟩ := h.begun i hi
    exact ⟨x, t, hx, hasks⟩

/-- A service with one family, whose runner waits at a gate. -/
def waiting : Service Unit :=
  { dispatcher := {
      table := [("e:run", {
        run := fun _ _ => .wait "gate" (pure .null)
        isSafe := fun _ => pure true })]
      sink := none }
    framework := .standard ⟨[]⟩
    now := "2024-01-02T03:04:05+00:00" }

/-- A request to run the pending commands. -/
def runRequest : Request := ⟨"POST", "/api/v1/hash-commands/pending/run", [], [], []⟩

/-- The application with one pending command. -/
def waitingApp : App (Watched Unit) := { desk := ⟨[⟨"e:run", "a", []⟩], ⟨(), []⟩⟩ }

/-- Two such requests have arrived, and the first one waits at the gate. -/
def waitingSite : Site Unit :=
  ((({ app := waitingApp : Site Unit }.step waiting (.arrive runRequest)).step waiting
    (.arrive runRequest)).step waiting (.goOn 0 (fun _ => false) .far))

/-- The second one is refused. -/
theorem second_run_refused : waitingSite.app.isBusy = true
    ∧ ∀ isOpen reach, ∃ settings, waitingSite.step waiting (.goOn 1 isOpen reach) =
      { app := { waitingSite.app with settings }
        exchanges := waitingSite.exchanges.set 1
          ⟨runRequest, .done (.ok (waiting.conflictReply runRequest)), true⟩
        log := waitingSite.log } := by
  have hreachable : Reachable waiting waitingSite :=
    (((Reachable.start waitingApp rfl rfl).step (.arrive runRequest)).step
      (.arrive runRequest)).step (.goOn 0 (fun _ => false) .far)
  have hsite := one_at_a_time waiting (Framework.standard_lawful ⟨[]⟩) (by decide) hreachable
  have hbusy : waitingSite.app.isBusy = true := by decide +kernel
  refine ⟨hbusy, hsite.refused 1 ⟨runRequest, waiting.watched.respond runRequest, false⟩ ?_ rfl
    ?_ ?_⟩
  · rfl
  · obtain ⟨i, hi, -⟩ := hsite.busy_iff.mp hbusy
    exact ⟨i, hi⟩
  · exact .inl (by decide +kernel)

end Site

end Deeplink.Http

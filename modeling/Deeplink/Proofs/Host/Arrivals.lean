import Deeplink.Proofs.Host.Registered
import Deeplink.Proofs.Task.Moments
import Deeplink.Proofs.Task.Upheld

/-!
# Arrivals

The current route and the history of a table of routes change when a navigation arrives, and in no
other way. Navigations overlap: each of them is suspended in the handler of its route, handlers
navigate themselves, and the one that has begun first may be the last to arrive. The current route
is the last one navigated to, and the history has all of them (specification, 6).

- `Host.Travelled`: a memory, and the names of the navigations that have ended with success.
- `Host.travel`: navigates, and notes the name behind a navigation that succeeds.
- `Host.ByNavigating`: work that does not reach the current route and the history but by navigating.
- `Host.Faithful`: the current route is the last of the history, and the history is what has
  arrived.
- `Host.Tour`: navigations that overlap on one desk.
- `Host.history_of_arrivals`: what holds in every state that a tour reaches, and what one navigation
  does to the current route and the history.
-/

namespace Deeplink.Host

variable {η μ : Type}

/-! ## The course of a host -/

/-- The current route, and the history. -/
def course (desk : Desk (Host η μ)) : Option Text × List Text :=
  (desk.host.routes.current, desk.host.routes.history)

/-- Changes of the course that `Q` allows. -/
def OnCourse (Q : Option Text × List Text → Option Text × List Text → Prop)
    (desk desk' : Desk (Host η μ)) : Prop :=
  Q (course desk) (course desk')

theorem OnCourse.isPreorder {Q : Option Text × List Text → Option Text × List Text → Prop}
    (hQ : IsPreorder Q) : IsPreorder (OnCourse (η := η) (μ := μ) Q) where
  refl desk := hQ.refl (course desk)
  trans h h' := hQ.trans h h'

/-- The current route is the last one of the history. -/
def Consistent (desk : Desk (Host η μ)) : Prop :=
  desk.host.routes.current = desk.host.routes.history.getLast?

/-- Consistency is a matter of the current route and the history alone. -/
theorem Consistent.of_course {desk desk' : Desk (Host η μ)} (h : Consistent desk)
    (hsame : course desk = course desk') : Consistent desk' := by
  obtain ⟨hcurrent, hhistory⟩ := Prod.mk.inj hsame
  show desk'.host.routes.current = desk'.host.routes.history.getLast?
  rw [← hcurrent, ← hhistory]
  exact h

/-- After an arrival, the current route is the last of the history. -/
theorem Consistent.arrived (name : Text) (desk : Desk (Host η μ)) :
    Consistent (updateRoutes (RouteTable.arrive name) desk) := by
  show some name = (desk.host.routes.history ++ [name]).getLast?
  rw [List.getLast?_concat]

/-- There is no current route exactly if there is no history. -/
theorem Consistent.eq_none_iff {desk : Desk (Host η μ)} (h : Consistent desk) :
    desk.host.routes.current = none ↔ desk.host.routes.history = [] := by
  rw [h]
  exact List.getLast?_eq_none_iff

/-! ## Arrivals that are noted -/

/-- A memory, and the names of the navigations that have ended with success, the oldest first. -/
structure Travelled (μ : Type) where
  memory : μ
  arrivals : List Text := []

namespace Travelled

/-- The host without the arrivals. -/
def forget (h : Host η (Travelled μ)) : Host η μ := ⟨h.registry, h.routes, h.memory.memory⟩

/-- A desk with the arrivals that another one has. -/
def remember (desk : Desk (Host η μ)) (travelled : Desk (Host η (Travelled μ))) :
    Desk (Host η (Travelled μ)) :=
  ⟨desk.pending, ⟨desk.host.registry, desk.host.routes,
    ⟨desk.host.memory, travelled.host.memory.arrivals⟩⟩⟩

/-- One more arrival. -/
def note (name : Text) (desk : Desk (Host η (Travelled μ))) : Desk (Host η (Travelled μ)) :=
  { desk with host := { desk.host with
      memory := { desk.host.memory with arrivals := desk.host.memory.arrivals ++ [name] } } }

theorem isPart : Task.IsPart (Desk.seen (forget (η := η) (μ := μ))) remember where
  part_put _ _ := rfl
  put_part _ := rfl
  put_put _ _ _ := rfl

end Travelled

/-- Navigates, and notes the name behind a navigation that succeeds. -/
def travel (call : Call η (Travelled μ)) (name : Text) (args : Args) :
    Task (Desk (Host η (Travelled μ))) Json :=
  (navigate call name args).bind fun v => .act (Travelled.note name) fun _ => .done (.ok v)

/-- The second task reaches the current route and the history by navigating only, and so do the
handlers of the routes that it navigates to. The first task is the same, with its navigations
noted. -/
inductive ByNavigating : {α : Type} → Task (Desk (Host η (Travelled μ))) α →
    Task (Desk (Host η μ)) α → Prop where
  | own {α : Type} {u : Task (Desk (Host η μ)) α} (h : u.Keeps (OnCourse Eq)) :
      ByNavigating (u.focus (Desk.seen Travelled.forget) Travelled.remember) u
  | navigate {call' : Call η (Travelled μ)} {call : Call η μ}
      (h : ∀ handler args, ByNavigating (call' handler args) (call handler args)) (name : Text)
      (args : Args) : ByNavigating (travel call' name args) (navigate call name args)
  | bind {α β : Type} {t : Task (Desk (Host η (Travelled μ))) α} {u : Task (Desk (Host η μ)) α}
      {f : α → Task (Desk (Host η (Travelled μ))) β} {g : α → Task (Desk (Host η μ)) β}
      (h : ByNavigating t u) (hfg : ∀ a, ByNavigating (f a) (g a)) :
      ByNavigating (t.bind f) (u.bind g)
  | attempt {α : Type} {t : Task (Desk (Host η (Travelled μ))) α} {u : Task (Desk (Host η μ)) α}
      (h : ByNavigating t u) : ByNavigating t.attempt u.attempt

/-- The current route is the last one of the history, and the history is what has arrived. -/
structure Faithful (desk : Desk (Host η (Travelled μ))) : Prop where
  current : Consistent desk
  history : desk.host.routes.history = desk.host.memory.arrivals

/-- Faithfulness is a matter of the current route, the history and the noted arrivals. -/
theorem Faithful.of_course {desk desk' : Desk (Host η (Travelled μ))} (h : Faithful desk)
    (hsame : course desk = course desk')
    (harrivals : desk.host.memory.arrivals = desk'.host.memory.arrivals) : Faithful desk' where
  current := h.current.of_course hsame
  history := by
    rw [← (Prod.mk.inj hsame).2, ← harrivals]
    exact h.history

/-- Arriving breaks it, and noting the arrival mends it. -/
theorem Faithful.arrived {desk : Desk (Host η (Travelled μ))} (h : Faithful desk) (name : Text) :
    Faithful (Travelled.note name (updateRoutes (RouteTable.arrive name) desk)) where
  current := Consistent.arrived name desk
  history := by
    show desk.host.routes.history ++ [name] = desk.host.memory.arrivals ++ [name]
    rw [h.history]

namespace ByNavigating

variable {α : Type} {t : Task (Desk (Host η (Travelled μ))) α} {u : Task (Desk (Host η μ)) α}

/-- Noting the arrivals changes nothing else. -/
theorem shadows (h : ByNavigating t u) : Task.Shadows (Desk.seen Travelled.forget) t u := by
  induction h with
  | own h => exact .focus Travelled.isPart _
  | @navigate call' call _ name args ih =>
    have hnavigate : Task.Shadows (Desk.seen Travelled.forget) (Host.navigate call' name args)
        (Host.navigate call name args) := by
      refine .get_bind fun desk => ?_
      show Task.Shadows _ (visitFound call' name args (desk.host.routes.get? name))
        (visitFound call name args (desk.host.routes.get? name))
      cases desk.host.routes.get? name with
      | none => exact .done _
      | some handler =>
        refine .bind ?_ fun v => .act (fun _ => rfl) fun _ => .emit _ (.done _)
        cases handler with
        | none => exact .done _
        | some handler => exact ih handler args
    rw [← Task.bind_done (Host.navigate call name args)]
    exact hnavigate.bind fun v => .hidden (fun _ => rfl) fun _ => .done _
  | bind _ _ ih ihfg => exact ih.bind ihfg
  | attempt _ ih => exact ih.attempt

/-- **No change breaks what the current route has to do with the history**, not even for a
moment. -/
theorem keeps_consistent (h : ByNavigating t u) :
    t.Keeps fun desk desk' => Consistent desk → Consistent desk' := by
  induction h with
  | own h => exact .focus h fun desk noted hsame hnoted => hnoted.of_course hsame
  | navigate _ name args ih =>
    refine .bind (navigate_keeps (fun desk hdesk => hdesk) ih
      (fun name desk _ => Consistent.arrived name desk) name args) fun v => ?_
    exact fun desk => ⟨fun hdesk => hdesk, trivial⟩
  | bind _ _ ih ihfg => exact ih.bind ihfg
  | attempt _ ih => exact ih.attempt

/-- **Whenever the task is suspended, and at its end, the history is what has arrived.** Between an
arrival and its note nobody else comes to work. -/
theorem upholds (h : ByNavigating t u) {desk : Desk (Host η (Travelled μ))}
    (hdesk : Faithful desk) : t.Upholds Faithful desk := by
  induction h generalizing desk with
  | own h =>
    have hkeeps : (Task.focus (Desk.seen Travelled.forget) Travelled.remember _).Keeps
        fun desk desk' : Desk (Host η (Travelled μ)) => course desk = course desk'
          ∧ desk.host.memory.arrivals = desk'.host.memory.arrivals :=
      .focus h fun desk noted hsame => ⟨hsame, rfl⟩
    exact .of_keeps (fun hsame hfaithful => hfaithful.of_course hsame.1 hsame.2) hkeeps hdesk
  | @navigate call' call _ name args ih =>
    show ((visitFound call' name args (desk.host.routes.get? name)).bind _).Upholds Faithful desk
    cases desk.host.routes.get? name with
    | none => exact hdesk
    | some handler =>
      unfold visitFound
      rw [Task.bind_assoc]
      refine .bind ?_ fun v desk' hdesk' => hdesk'.arrived name
      cases handler with
      | none => exact hdesk
      | some handler => exact ih handler args hdesk
  | bind _ _ ih ihfg => exact (ih hdesk).bind fun a desk' hdesk' => ihfg a hdesk'
  | attempt _ ih => exact (ih hdesk).attempt

end ByNavigating

/-! ## Tours -/

/-- A desk, and the navigations that have begun on it, in the order in which they have begun. -/
structure Tour (η μ : Type) where
  desk : Desk (Host η (Travelled μ))
  navigations : List (Task (Desk (Host η (Travelled μ))) Json) := []

/-- What happens next: a route is registered, a navigation begins, or the one at a position goes on.
Which gates are open then, and how far it goes, is left open. -/
inductive Move (η : Type) where
  | register (name : Text) (handler : Option η)
  | navigate (name : Text) (args : Args)
  | goOn (i : Nat) (isOpen : Text → Bool) (reach : Task.Reach)

namespace Tour

/-- One move. A navigation that begins does nothing yet. -/
def step (call : Call η (Travelled μ)) (tour : Tour η μ) : Move η → Tour η μ
  | .register name handler =>
    { tour with desk := updateRoutes (RouteTable.register name handler) tour.desk }
  | .navigate name args => { tour with navigations := tour.navigations ++ [travel call name args] }
  | .goOn i isOpen reach =>
    match tour.navigations[i]? with
    | none => tour
    | some t =>
      { desk := (t.resume isOpen reach tour.desk).state
        navigations := tour.navigations.set i (t.resume isOpen reach tour.desk).task }

/-- The tours that come of a desk on which nobody has navigated. Other code may change anything on
the desk in between, but the current route and the history. -/
inductive Reachable (call : Call η (Travelled μ)) : Tour η μ → Prop where
  | start (desk : Desk (Host η (Travelled μ))) (hcourse : course desk = (none, []))
      (harrivals : desk.host.memory.arrivals = []) : Reachable call { desk }
  | step {tour : Tour η μ} (h : Reachable call tour) (m : Move η) :
      Reachable call (tour.step call m)
  | aside {tour : Tour η μ} (h : Reachable call tour) {desk : Desk (Host η (Travelled μ))}
      (hcourse : course tour.desk = course desk)
      (harrivals : tour.desk.host.memory.arrivals = desk.host.memory.arrivals) :
      Reachable call { tour with desk }

theorem Reachable.moves {call : Call η (Travelled μ)} {tour : Tour η μ} (h : Reachable call tour)
    (ms : List (Move η)) : Reachable call (ms.foldl (Tour.step call) tour) := by
  induction ms generalizing tour with
  | nil => exact h
  | cons m ms ih => exact ih (h.step m)

/-- The desk is faithful, and each navigation that is left keeps it so. -/
structure Invariant (tour : Tour η μ) : Prop where
  faithful : Faithful tour.desk
  upholds : ∀ t ∈ tour.navigations, ∀ desk, Faithful desk → t.Upholds Faithful desk

section Reachable

variable {call' : Call η (Travelled μ)} {call : Call η μ} {tour : Tour η μ}
  (hcall : ∀ handler args, ByNavigating (call' handler args) (call handler args))

include hcall

/-- **One move** keeps the invariant: what is registered is changed, a navigation begins, or one
goes on. -/
theorem Invariant.step (h : Invariant tour) (m : Move η) : Invariant (tour.step call' m) := by
  cases m with
  | register name handler =>
    exact { faithful := h.faithful.of_course rfl rfl
            upholds := h.upholds }
  | navigate name args =>
    refine { faithful := h.faithful, upholds := ?_ }
    intro t ht desk hdesk
    rcases List.mem_append.mp ht with ht | ht
    · exact h.upholds t ht desk hdesk
    · obtain rfl := List.mem_singleton.mp ht
      exact (ByNavigating.navigate hcall name args).upholds hdesk
  | goOn i isOpen reach =>
    simp only [Tour.step]
    cases hi : tour.navigations[i]? with
    | none => exact h
    | some t =>
      obtain ⟨hfaithful, hleft⟩ := Task.Upholds.resume isOpen reach
        (h.upholds t (List.mem_of_getElem? hi)) h.faithful
      refine { faithful := hfaithful, upholds := ?_ }
      intro t' ht' desk hdesk
      rcases List.mem_or_eq_of_mem_set ht' with ht' | rfl
      · exact h.upholds t' ht' desk hdesk
      · exact hleft desk hdesk

/-- **Every state that a tour reaches is faithful**, whatever begins and in whatever order it goes
on. -/
theorem Reachable.invariant (h : Reachable call' tour) : Invariant tour := by
  induction h with
  | start desk hcourse harrivals =>
    obtain ⟨hcurrent, hhistory⟩ := Prod.mk.inj hcourse
    refine { faithful := ⟨?_, hhistory.trans harrivals.symm⟩, upholds := nofun }
    show desk.host.routes.current = desk.host.routes.history.getLast?
    rw [hcurrent, hhistory]
    rfl
  | step _ m ih => exact ih.step hcall m
  | aside _ hcourse harrivals ih =>
    exact { faithful := ih.faithful.of_course hcourse harrivals
            upholds := ih.upholds }

end Reachable

end Tour

/-! ## One navigation -/

section Ends

variable {call : Call η μ} {name : Text} {args : Args} {desk desk' : Desk (Host η μ)}
  {others : Desk (Host η μ) → Desk (Host η μ) → Prop} {r : Except Failure Json}

/-- A route that is not registered is not arrived at, and no handler is called for it. -/
theorem navigate_ends_of_unknown (h : desk.host.routes.get? name = none) :
    Task.Ends others (navigate call name args) desk r desk'
      ↔ r = .error (unknown "Route" name) ∧ desk' = desk := by
  have hprompt : (Task.fail (unknown "Route" name) : Task (Desk (Host η μ)) Json).Prompt := trivial
  constructor
  · intro hends
    have hends := hends.of_get_bind
    rw [h] at hends
    exact (Task.Ends.prompt_iff hprompt).mp hends
  · rintro ⟨rfl, rfl⟩
    refine .act ?_
    show Task.Ends others (visitFound call name args (desk'.host.routes.get? name)) desk' _ desk'
    rw [h]
    exact .done _ _

variable {Q : Option Text × List Text → Option Text × List Text → Prop} (hQ : IsPreorder Q)
  (hothers : ∀ {desk desk'}, others desk desk' → OnCourse Q desk desk')
  (hcall : ∀ handler, (call handler args).Keeps (OnCourse Q))

include hQ hothers hcall

/-- Up to its arrival, a navigation leaves the course to its handler and to others. -/
theorem course_of_visit {handler : Option η}
    (hends : Task.Ends others (visit call handler args) desk r desk') :
    OnCourse Q desk desk' := by
  refine hends.keeps (OnCourse.isPreorder hQ) hothers ?_
  cases handler with
  | none => trivial
  | some handler => exact hcall handler

/-- **A navigation that fails does not touch the course, and one that succeeds arrives at its
end.** -/
theorem course_of_navigate (hends : Task.Ends others (navigate call name args) desk r desk') :
    (∃ e, r = .error e ∧ OnCourse Q desk desk')
      ∨ ∃ v before, r = .ok v ∧ Q (course desk) before
        ∧ course desk' = (some name, before.2 ++ [name]) := by
  have hends := hends.of_get_bind
  cases hname : desk.host.routes.get? name with
  | none =>
    rw [hname] at hends
    cases hends with
    | done => exact .inl ⟨_, rfl, hQ.refl _⟩
  | some handler =>
    rw [hname] at hends
    rcases Task.Ends.of_bind hends with ⟨v, desk₁, hvisit, harrive⟩ | ⟨e, rfl, hvisit⟩
    · have hbefore := course_of_visit hQ hothers hcall hvisit
      cases harrive with
      | act harrive =>
        cases harrive with
        | emit harrive =>
          cases harrive with
          | done => exact .inr ⟨v, course desk₁, rfl, hbefore, rfl⟩
    · exact .inl ⟨e, rfl, course_of_visit hQ hothers hcall hvisit⟩

end Ends

/-! ## The history -/

/-- What the current route and the history have to do with the navigations. `call'` calls handlers
with their own navigations noted. -/
structure HistoryOfArrivals (call' : Call η (Travelled μ)) (call : Call η μ) : Prop where
  /-- Noting the arrivals changes nothing else. -/
  shadows : ∀ name args,
    Task.Shadows (Desk.seen Travelled.forget) (travel call' name args) (navigate call name args)
  /-- In every state that a tour reaches the current route is the last one of the history. -/
  current : ∀ tour, Tour.Reachable call' tour →
    tour.desk.host.routes.current = tour.desk.host.routes.history.getLast?
  /-- There is none exactly if the history is empty. -/
  nowhere : ∀ tour, Tour.Reachable call' tour →
    (tour.desk.host.routes.current = none ↔ tour.desk.host.routes.history = [])
  /-- The history is the names of the navigations that have ended with success, in the order in
  which they have ended. -/
  history : ∀ tour, Tour.Reachable call' tour →
    tour.desk.host.routes.history = tour.desk.host.memory.arrivals
  /-- Not even in the midst of a turn is the current route another one than the last of the
  history. -/
  moments : ∀ (others : Desk (Host η (Travelled μ)) → Desk (Host η (Travelled μ)) → Prop) name args
    desk desk', (∀ {desk desk'}, others desk desk' → Consistent desk → Consistent desk') →
    Task.Passes others (travel call' name args) desk desk' → Consistent desk → Consistent desk'
  /-- A navigation to an unknown name fails at once and changes nothing. -/
  unknown : ∀ (others : Desk (Host η μ) → Desk (Host η μ) → Prop) name args desk r desk',
    desk.host.routes.get? name = none →
    (Task.Ends others (navigate call name args) desk r desk'
      ↔ r = .error (unknown "Route" name) ∧ desk' = desk)
  /-- Whatever its handler and others do to the course meanwhile, a navigation that fails does
  nothing to it; one that succeeds arrives at its very end. -/
  ends : ∀ (Q : Option Text × List Text → Option Text × List Text → Prop)
    (others : Desk (Host η μ) → Desk (Host η μ) → Prop) name args desk r desk', IsPreorder Q →
    (∀ {desk desk'}, others desk desk' → OnCourse Q desk desk') →
    (∀ handler, (call handler args).Keeps (OnCourse Q)) →
    Task.Ends others (navigate call name args) desk r desk' →
    (∃ e, r = .error e ∧ OnCourse Q desk desk')
      ∨ ∃ v before, r = .ok v ∧ Q (course desk) before
        ∧ course desk' = (some name, before.2 ++ [name])

/-- **The history is what has arrived**, however the navigations overlap, if the handlers reach the
current route and the history by navigating only. -/
theorem history_of_arrivals {call' : Call η (Travelled μ)} {call : Call η μ}
    (hcall : ∀ handler args, ByNavigating (call' handler args) (call handler args)) :
    HistoryOfArrivals call' call where
  shadows name args := (ByNavigating.navigate hcall name args).shadows
  current tour h := (h.invariant hcall).faithful.current
  nowhere tour h := (h.invariant hcall).faithful.current.eq_none_iff
  history tour h := (h.invariant hcall).faithful.history
  moments := by
    intro others name args desk desk' hothers hpasses
    have hpreorder : IsPreorder fun desk desk' : Desk (Host η (Travelled μ)) =>
        Consistent desk → Consistent desk' :=
      { refl := fun _ hdesk => hdesk
        trans := fun h h' hdesk => h' (h hdesk) }
    exact hpasses.keeps hpreorder hothers (ByNavigating.navigate hcall name args).keeps_consistent
  unknown := by
    intro others name args desk r desk' h
    exact navigate_ends_of_unknown h
  ends := by
    intro Q others name args desk r desk' hQ hothers hkeeps hends
    exact course_of_navigate hQ hothers hkeeps hends

/-- Handlers of two kinds: one waits at a gate, the other fails there. -/
def gated (succeeds : Bool) (_ : Args) : Task (Desk (Host Bool μ)) Json :=
  .wait "gate" (if succeeds then .done (.ok .null) else Task.fail (.of (.raised .runtime "lost")))

/-- Routes `a` and `b`, whose handlers return, and `c`, whose handler fails. All three are navigated
to, and a fourth name that is not registered. Then `c` goes on first and `b` overtakes `a`; `d` has
no handler. -/
def overtaking : List (Move Bool) :=
  let closed := fun _ : Text => false
  let open' := fun _ : Text => true
  [.register "a" (some true), .register "b" (some true), .register "c" (some false),
    .register "d" none, .navigate "a" [], .navigate "b" [], .navigate "c" [],
    .navigate "nowhere" [], .goOn 0 closed .turn, .goOn 1 closed .turn, .goOn 2 closed .turn,
    .goOn 3 closed .turn, .goOn 2 open' .turn, .goOn 1 open' .turn, .navigate "d" [],
    .goOn 4 closed .turn, .goOn 0 open' .turn]

theorem overtaken_history :
    (∀ succeeds args, ByNavigating (gated (μ := Travelled Unit) succeeds args)
      (gated (μ := Unit) succeeds args))
    ∧ ∃ tour : Tour Bool Unit, Tour.Reachable gated tour
      ∧ tour.desk.host.memory.arrivals = ["b", "d", "a"]
      ∧ tour.desk.host.routes.history = ["b", "d", "a"]
      ∧ tour.desk.host.routes.current = some "a" := by
  have hcall : ∀ succeeds args, ByNavigating (gated (μ := Travelled Unit) succeeds args)
      (gated (μ := Unit) succeeds args) := by
    intro succeeds args
    cases succeeds with
    | true => exact .own (u := gated true args) trivial
    | false => exact .own (u := gated false args) trivial
  have hreach : Tour.Reachable gated
      (overtaking.foldl (Tour.step gated) { desk := ⟨[], { memory := ⟨(), []⟩ }⟩ }) :=
    .moves (.start _ rfl rfl) overtaking
  have harrivals := (history_of_arrivals hcall).history _ hreach
  refine ⟨hcall, _, hreach, rfl, harrivals.trans rfl, ?_⟩
  rw [(history_of_arrivals hcall).current _ hreach, harrivals]
  rfl

end Deeplink.Host

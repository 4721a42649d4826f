import Deeplink.Proofs.Host.Registered
import Deeplink.Proofs.Task.Within

/-!
# Live safety

Whether a command may run is asked when a run begins, and nothing that was known before counts: not
what was registered when its fragment was read, and not what an earlier run was told. Safety is
looked up when a sequence is validated, and never cached (specification, 3 and 6).

- `Host.Adds`: the registry stays the same, and handlers are called as a predicate allows.
- `Host.Proper`: the handler of a command is the registered one, and the command is safe.
- `Host.run_keeps`: a run calls no other handlers of commands.
- `Host.LiveSafety`: the same, and what becomes of a sequence with a command that may not run, in
  terms of what has been registered.
- `Host.live_safety`: this holds of all ways to run commands.
-/

namespace Deeplink.Host

open Dispatcher (rejection refusalNotice)

variable {η μ : Type} {call : Call η μ} {s : Settings} {sink : Option (Sink (Host η μ))}
  {registry : Registry η}

/-! ## Calls -/

/-- The registry stays the same, and each call of a handler that begins is one that `P` allows. -/
def Adds (P : Invocation η → Prop) (desk desk' : Desk (Host η (Noted η μ))) : Prop :=
  SameRegistryOn desk desk'
    ∧ ∃ es, events desk' = events desk ++ es ∧ ∀ i, Event.began i ∈ es → P i

theorem Adds.isPreorder (P : Invocation η → Prop) : IsPreorder (Adds (μ := μ) P) where
  refl desk := ⟨rfl, [], (List.append_nil _).symm, fun _ hi => nomatch hi⟩
  trans := by
    rintro desk desk' desk'' ⟨hsame, es, hes, hall⟩ ⟨hsame', es', hes', hall'⟩
    refine ⟨SameRegistryOn.isPreorder.trans hsame hsame', es ++ es', ?_, fun i hi => ?_⟩
    · rw [hes', hes, List.append_assoc]
    · rcases List.mem_append.mp hi with hi | hi
      · exact hall i hi
      · exact hall' i hi

/-- What changes neither the registry nor the events. -/
theorem Adds.of_same {P : Invocation η → Prop} {desk desk' : Desk (Host η (Noted η μ))}
    (hregistry : SameRegistryOn desk desk') (hevents : events desk' = events desk) :
    Adds P desk desk' :=
  ⟨hregistry, [], by rw [hevents, List.append_nil], fun _ hi => nomatch hi⟩

/-- The desk has the registry. -/
def Has (registry : Registry η) (desk : Desk (Host η (Noted η μ))) : Prop :=
  desk.host.registry = registry

theorem Has.of_adds {P : Invocation η → Prop} {desk desk' : Desk (Host η (Noted η μ))}
    (h : Adds P desk desk') (hdesk : Has registry desk) : Has registry desk' :=
  h.1.trans hdesk

/-- If it is the handler of a command that is called, it is the one that the registry has for the
command, and the command is safe. -/
def Proper (registry : Registry η) (i : Invocation η) : Prop :=
  i.kind = .command →
    ∃ r, registry.get? i.name = some r ∧ r.handler = i.handler ∧ r.isSafe = true

/-! ## What runs call -/

section Runs

variable (hcall : ∀ handler args, (call handler args).Keeps SameRegistryOn)

include hcall

/-- Noting a handler adds its call, and nothing that the handler does adds another one. -/
theorem noting_keeps {P : Invocation η → Prop} {kind : Kind} {name : Text} {handler : η}
    {args : Args} (hi : P ⟨kind, name, handler, args⟩) :
    (noting call kind name handler args).Keeps (Adds P) := by
  refine .bind (.modify fun desk => ⟨rfl, [_], rfl, fun i h => ?_⟩) fun _ =>
    .bind (.attempt ?_) fun r desk => ⟨⟨rfl, [_], rfl, fun i h => ?_⟩, trivial⟩
  · obtain rfl := Event.began.inj (List.mem_singleton.mp h)
    exact hi
  · exact .focus (hcall handler args) fun desk noted h => Adds.of_same h rfl
  · cases List.mem_singleton.mp h

/-- A safe command calls the handler that the registry has for it. -/
theorem runCommand_keepsIn {name : Text} (hsafe : registry.isSafe name = true) (args : Args) :
    (runCommand (noting call .command name) name args).KeepsIn (Has registry)
      (Adds (Proper registry)) := by
  rw [runCommand_eq]
  refine .get_bind (Adds.isPreorder _).refl fun desk hdesk => ?_
  rw [hdesk]
  obtain ⟨r, hr, hrsafe⟩ := Registry.isSafe_eq_true_iff.mp hsafe
  rw [hr]
  exact .of_keeps (noting_keeps hcall fun _ => ⟨r, hr, rfl, hrsafe⟩)

theorem navigate_keepsIn (name : Text) (args : Args) :
    (navigate (noting call .route name) name args).KeepsIn (Has registry)
      (Adds (Proper registry)) := by
  refine .of_keeps (navigate_keeps (Adds.isPreorder _).refl (fun handler args => ?_)
    (fun _ _ => Adds.of_same rfl rfl) name args)
  exact noting_keeps hcall fun hkind => nomatch hkind

variable (hmethods : s.runMethod ≠ s.routeMethod)

include hmethods

theorem runner_keepsIn {c : Command} (hc : Permits s registry c) :
    ((noted call s sink).runner c).KeepsIn (Has registry) (Adds (Proper registry)) := by
  unfold Dispatcher.runner
  rcases hc with hroute | ⟨hrun, hsafe⟩
  · rw [hroute, noted_lookup_route hmethods]
    exact navigate_keepsIn hcall c.name c.args
  · rw [hrun, noted_lookup_run hmethods]
    exact runCommand_keepsIn hcall hsafe c.args

theorem runFrom_keepsIn {cs : List Command} (hcs : ∀ c ∈ cs, Permits s registry c)
    (position : Nat) :
    ((noted call s sink).runFrom position cs).KeepsIn (Has registry)
      (Adds (Proper registry)) := by
  induction cs generalizing position with
  | nil => trivial
  | cons c cs ih =>
    obtain ⟨hc, hcs⟩ := List.forall_mem_cons.mp hcs
    refine .bind ?_ fun _ => ih hcs (position + 1)
    refine Dispatcher.runAt_cases _ c position (.bind (runner_keepsIn hcall hmethods hc).attempt
      fun r => ?_) trivial
    exact .of_keeps (Dispatcher.settle_keeps c position r)

/-- **A run calls no handlers of commands but those of the registry that it is validated with.** -/
theorem run_keepsIn (cs : List Command) :
    ((noted call s sink).run cs).KeepsIn (Has registry) (Adds (Proper registry)) := by
  have hasks := noted_asksRegistry call sink hmethods
  refine .ofAct_bind (fun desk hdesk => ?_) fun desk u hdesk hvalid => ?_
  · -- whether it succeeds or not, validation changes nothing
    rcases permits_or_first s desk.host.registry cs with hcs | ⟨before, c, after, rfl, hbefore, hc⟩
    · rw [Desk.onHost, Act.focus_apply, validate_of_permits hasks hcs]
      exact (Adds.isPreorder _).refl desk
    · rw [Desk.onHost, Act.focus_apply, validate_of_refused hasks hbefore hc]
      exact (Adds.isPreorder _).refl desk
  · rcases permits_or_first s desk.host.registry cs with hcs | ⟨before, c, after, rfl, hbefore, hc⟩
    · rw [hdesk] at hcs
      exact .bind (runFrom_keepsIn hcall hmethods hcs 0) fun _ => trivial
    · rw [Desk.onHost, Act.focus_apply, validate_of_refused hasks hbefore hc]
        at hvalid
      cases hvalid

end Runs

/-! ## Live safety -/

/-- What may happen beside a run: the registry stays the same, and no handlers are called. -/
def Beside (desk desk' : Desk (Host η (Noted η μ))) : Prop :=
  SameRegistryOn desk desk' ∧ events desk' = events desk

/-- What comes of a sequence that a task validates and runs after operations on the host. `noted` is
the same task with the handlers noted. -/
structure LiveSafety (s : Settings) (ops : List (Operation η)) (cs : List Command)
    (desk : Desk (Host η (Noted η μ))) (task : Task (Desk (Host η μ)) Nat)
    (noted : Task (Desk (Host η (Noted η μ))) Nat) : Prop where
  /-- Noting the handlers changes nothing else. -/
  shadows : Task.Shadows (Desk.seen forget) noted task
  /-- However far the run has come: the handler of a command that it has called is the one that was
  registered last for the command, as that of a safe one, and the command has not been unregistered
  since. -/
  called : ∀ left desk', Task.Comes Beside noted desk left desk' →
    ∃ es, events desk' = events desk ++ es ∧ ∀ i, Event.began i ∈ es → i.kind = .command →
      ∃ r, Latest i.name r ops ∧ r.handler = i.handler ∧ r.isSafe = true
  /-- If a command of the sequence is not registered, or was registered last as an unsafe one, then
  the run is refused and nothing is done: no handler is called, neither that of a command nor that
  of a route. -/
  refused : ∀ c ∈ cs, c.method = s.runMethod →
    (¬ ∃ r, Latest c.name r ops ∧ r.isSafe = true) →
    ∃ before c' after, cs = before ++ c' :: after ∧ ∀ isOpen reach,
      noted.work isOpen reach desk
        = ⟨.done (.error (rejection c' before.length (refusalOf s c'))), desk,
          [refusalNotice c' before.length (refusalOf s c')], false⟩

/-- A run, whatever follows it, is safe if what follows calls no handlers. -/
theorem liveSafety_bind (call : Call η μ) (sink : Option (Sink (Host η μ)))
    (hmethods : s.runMethod ≠ s.routeMethod)
    {ops : List (Operation η)} {desk : Desk (Host η (Noted η μ))}
    (hlatest : ∀ name r, desk.host.registry.get? name = some r ↔ Latest name r ops)
    (cs : List Command) {task : Task (Desk (Host η μ)) Nat}
    {noted' : Task (Desk (Host η (Noted η μ))) Nat}
    (hshadows : Task.Shadows (Desk.seen forget) noted' task)
    {f : Nat → Task (Desk (Host η (Noted η μ))) Nat}
    (hkeeps : noted'.KeepsIn (Has desk.host.registry) (Adds (Proper desk.host.registry)))
    (hnoted : ∀ isOpen reach, noted'.work isOpen reach desk
      = (((noted call s sink).run cs).bind f).work isOpen reach desk) :
    LiveSafety s ops cs desk task noted' where
  shadows := hshadows
  called := by
    intro left desk' hcomes
    have hbeside : ∀ {desk₁ desk₂ : Desk (Host η (Noted η μ))}, Beside desk₁ desk₂ →
        Adds (Proper desk.host.registry) desk₁ desk₂ := fun h => Adds.of_same h.1 h.2
    obtain ⟨⟨-, es, hes, hproper⟩, -⟩ :=
      hkeeps.comes (Adds.isPreorder _) Has.of_adds hbeside rfl hcomes
    refine ⟨es, hes, fun i hi hkind => ?_⟩
    obtain ⟨r, hr, hhandler, hsafe⟩ := hproper i hi hkind
    exact ⟨r, (hlatest i.name r).mp hr, hhandler, hsafe⟩
  refused := by
    intro c hc hrun hnone
    have hunsafe : ¬ Permits s desk.host.registry c :=
      not_permits hmethods hrun fun ⟨r, hr, hsafe⟩ => hnone ⟨r, (hlatest c.name r).mp hr, hsafe⟩
    obtain ⟨before, c', after, hcs, -, -, hwork⟩ :=
      run_refused (noted_asksRegistry call sink hmethods) ⟨c, hc, hunsafe⟩
    refine ⟨before, c', after, hcs, fun isOpen reach => ?_⟩
    rw [hnoted, hwork]

/-- **Live safety**: whether commands are given, or the pending ones are run or run once, what has
been registered when the run begins decides, whatever was registered before. -/
theorem live_safety (call : Call η μ) (s : Settings) (sink : Option (Sink (Host η μ)))
    (hmethods : s.runMethod ≠ s.routeMethod) (hleave : LeaveRegistry call sink)
    {ops : List (Operation η)} {desk₀ : Desk (Host η μ)}
    (hhistory : History (standard call s sink) ops desk₀) {desk : Desk (Host η (Noted η μ))}
    (hdesk : SameRegistryOn desk₀ (Desk.seen forget desk)) :
    (∀ cs, LiveSafety s ops cs desk ((standard call s sink).run cs) ((noted call s sink).run cs))
      ∧ LiveSafety s ops desk.pending desk (standard call s sink).runPending
        (noted call s sink).runPending
      ∧ LiveSafety s ops desk.pending desk (standard call s sink).runOnce
        (noted call s sink).runOnce := by
  have hshadows := noted_shadows call s sink
  have hlatest : ∀ name r, desk.host.registry.get? name = some r ↔ Latest name r ops := by
    intro name r
    have hsame : desk.host.registry = desk₀.host.registry := hdesk
    rw [hsame]
    exact hhistory.get?_eq_some_iff hmethods hleave name r
  have hkeeps (cs : List Command) : ((noted call s sink).run cs).KeepsIn (Has desk.host.registry)
      (Adds (Proper desk.host.registry)) :=
    run_keepsIn hleave.call hmethods cs
  have hrefl := (Adds.isPreorder (μ := μ) (Proper desk.host.registry)).refl
  have hpending := Task.KeepsIn.get_bind (f := fun desk => (noted call s sink).run desk.pending)
    hrefl fun desk _ => hkeeps desk.pending
  -- all three are a run with something behind it: nothing, nothing, and a change of what is pending
  refine ⟨fun cs => ?_, ?_, ?_⟩
  · refine liveSafety_bind call sink hmethods hlatest cs (hshadows.run cs)
      (f := fun n => .done (.ok n)) (hkeeps cs) fun isOpen reach => ?_
    rw [Task.bind_done]
  · refine liveSafety_bind call sink hmethods hlatest desk.pending hshadows.runPending
      (f := fun n => .done (.ok n)) hpending fun isOpen reach => ?_
    rw [Task.bind_done]
    rfl
  · refine liveSafety_bind call sink hmethods hlatest desk.pending hshadows.runOnce ?_
      fun _ _ => rfl
    refine .bind hpending fun _ => .of_keeps ?_
    exact .bind (.modify fun _ => Adds.of_same rfl rfl) fun _ => trivial

/-- A command is registered as a safe one, a fragment is loaded that has it behind a route, and then
the command is registered again, as one that is not safe. -/
def flagged : List (Operation Unit) :=
  [.register "x" ⟨(), true⟩, .dispatch (.load (some "#e:route:home&e:run:x")),
    .register "x" ⟨(), false⟩]

/-- The desk behind these operations. -/
def flaggedDesk : Desk (Host Unit (Noted Unit Unit)) :=
  { pending := [⟨"e:route", "home", []⟩, ⟨"e:run", "x", []⟩]
    host := { registry := ⟨[("x", ⟨(), false⟩)]⟩, memory := { memory := () } } }

/-- The pending commands are refused, and the route is not visited. -/
theorem flagged_refused : Settings.defaults.runMethod ≠ Settings.defaults.routeMethod
    ∧ LeaveRegistry idle none
    ∧ History (standard idle .defaults none) flagged (Desk.seen forget flaggedDesk)
    ∧ ∃ e trace, ∀ isOpen reach,
      (noted idle .defaults none).runOnce.work isOpen reach flaggedDesk
        = ⟨.done (.error e), flaggedDesk, trace, false⟩ := by
  have hmethods : Settings.defaults.runMethod ≠ Settings.defaults.routeMethod := by decide
  have hleave : LeaveRegistry (η := Unit) (μ := Unit) idle none :=
    { call := fun _ _ => trivial
      sink := by simp [Fragment.SinkKeeps] }
  have hbegun : History (standard idle .defaults none) [] ⟨[], { memory := () }⟩ := .begun rfl
  have hhistory : History (standard idle .defaults none) flagged (Desk.seen forget flaggedDesk) :=
    ((hbegun.registered "x" ⟨(), true⟩).loaded rfl (some "#e:route:home&e:run:x")).registered "x"
      ⟨(), false⟩
  refine ⟨hmethods, hleave, hhistory, ?_⟩
  -- what the first registration has said does not count any more
  have hunsafe : ¬ ∃ r, Latest "x" r flagged ∧ r.isSafe = true := by
    rintro ⟨r, hlatest, hsafe⟩
    have hlatest : Latest "x" r (flagged.dropLast ++ [.register "x" ⟨(), false⟩]) := hlatest
    rcases latest_concat.mp hlatest with hr | ⟨habout, -⟩
    · injection hr with _ hr
      rw [← hr] at hsafe
      cases hsafe
    · exact habout rfl
  have hdesk : SameRegistryOn (Desk.seen forget flaggedDesk) (Desk.seen forget flaggedDesk) := rfl
  obtain ⟨-, -, hsafety⟩ := live_safety idle .defaults none hmethods hleave hhistory hdesk
  obtain ⟨before, c, after, -, hwork⟩ :=
    hsafety.refused ⟨"e:run", "x", []⟩ (by simp [flaggedDesk]) rfl hunsafe
  exact ⟨_, _, hwork⟩

end Deeplink.Host

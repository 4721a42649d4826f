import Deeplink.Proofs.Host.Permission
import Deeplink.Proofs.Settings.Methods

/-!
# How the standard families are wired

The standard table has two entries if the two methods that settings name are different. Settings may
also name one method twice. Then the routes have it, and as all routes are safe, no command with
this method is ever refused. The two families stand in the table under the methods of the settings
(specification, 6 and 10.1).

- `Host.standard_table`, `Host.standard_table_merged`: the entries of the table.
- `Host.Spoiled`: a sequence has a command for the registry, which does not know it as a safe one.
- `Host.Refused`: a task refuses a sequence before anything has been run.
- `Host.Wired`, `Host.families_wired`: what the table is, and which sequences are refused.
-/

namespace Deeplink.Host

open Dispatcher (rejection refusalNotice)

variable {η μ : Type} {call : Call η μ} {s : Settings} {sink : Option (Sink (Host η μ))}

/-! ## Entries -/

theorem standard_table (hmethods : s.runMethod ≠ s.routeMethod) : (standard call s sink).table
    = [(s.runMethod, commandFamily call), (s.routeMethod, routeFamily call)] :=
  if_neg hmethods

theorem standard_table_merged (hmethods : s.runMethod = s.routeMethod) :
    (standard call s sink).table = [(s.runMethod, routeFamily call)] :=
  if_pos hmethods

theorem standard_lookup_route :
    (standard call s sink).table.lookup s.routeMethod = some (routeFamily call) :=
  Keyed.lookup_set_self _ _ _

/-- Whatever the registry says, commands of the method of the routes are never refused. -/
theorem validate_navigations {cs : List Command} (hcs : ∀ c ∈ cs, c.method = s.routeMethod)
    (h : Host η μ) : (standard call s sink).validate cs h = ⟨.ok (), h, []⟩ := by
  refine validate_of_asks fun c hc => ?_
  have hlookup : (standard call s sink).table.lookup c.method = some (routeFamily call) :=
    hcs c hc ▸ standard_lookup_route
  rw [Dispatcher.ask_of_lookup hlookup]
  rfl

/-! ## Refused sequences -/

/-- A command of the run method is not registered as a safe one. -/
def Spoiled (s : Settings) (registry : Registry η) (cs : List Command) : Prop :=
  ∃ c ∈ cs, c.method = s.runMethod ∧ ¬ ∃ r, registry.get? c.name = some r ∧ r.isSafe = true

/-- A task that comes from one desk to another and shows some signals while it reads a sequence, and
then refuses it. The first command that may not run is named, and nothing else is done. -/
def Refused (s : Settings) (task : Task (Desk (Host η μ)) Nat) (desk : Desk (Host η μ))
    (cs : List Command) (desk' : Desk (Host η μ)) (xs : List Signal) : Prop :=
  ∃ before c after, cs = before ++ c :: after
    ∧ (∀ b ∈ before, Permits s desk'.host.registry b) ∧ ¬ Permits s desk'.host.registry c
    ∧ ∀ isOpen reach, task.work isOpen reach desk
      = ⟨.done (.error (rejection c before.length (refusalOf s c))), desk',
        xs ++ [refusalNotice c before.length (refusalOf s c)], false⟩

/-- How the two families are wired, and what follows from it. -/
structure Wired (call : Call η μ) (s : Settings) (sink : Option (Sink (Host η μ))) : Prop where
  /-- Each of the methods has been checked. -/
  shapes : Settings.IsMethod s.runMethod ∧ Settings.IsMethod s.routeMethod
  /-- Two methods have two entries: that of the registry, -/
  entries : s.runMethod ≠ s.routeMethod → (standard call s sink).table
    = [(s.runMethod, commandFamily call), (s.routeMethod, routeFamily call)]
  /-- whose check is a look into the registry as it is then, and nothing more, -/
  live : ∀ name h, (commandFamily call).isSafe name h = ⟨.ok (h.registry.isSafe name), h, []⟩
  /-- and that of the routes, all of which are safe. -/
  safe : ∀ name h, (routeFamily call).isSafe name h = ⟨.ok true, h, []⟩
  /-- Then a sequence with a command that is not registered as a safe one is refused, whether it is
  given, -/
  run : s.runMethod ≠ s.routeMethod → ∀ desk cs, Spoiled s desk.host.registry cs →
    Refused s ((standard call s sink).run cs) desk cs desk []
  /-- pending, -/
  runPending : s.runMethod ≠ s.routeMethod → ∀ desk, Spoiled s desk.host.registry desk.pending →
    Refused s (standard call s sink).runPending desk desk.pending desk []
      ∧ Refused s (standard call s sink).runOnce desk desk.pending desk []
  /-- or read from a fragment. The sink may have been told before. -/
  runFragment : s.runMethod ≠ s.routeMethod → ∀ desk raw cs h xs,
    (standard call s sink).parse raw desk.host = ⟨.ok cs, h, xs⟩ → Spoiled s h.registry cs →
    Refused s ((standard call s sink).runFragment raw) desk cs ⟨desk.pending, h⟩ xs
  /-- One method for both has one entry, that of the routes. -/
  merged : s.runMethod = s.routeMethod →
    (standard call s sink).table = [(s.runMethod, routeFamily call)]
  /-- Then no sequence of commands with this method is refused, whatever the registry says. -/
  never : s.runMethod = s.routeMethod → ∀ cs h, (∀ c ∈ cs, c.method = s.runMethod) →
    (standard call s sink).validate cs h = ⟨.ok (), h, []⟩

/-- A run is refused, and so is what comes to one and goes on behind it. -/
theorem run_spoiled (call : Call η μ) (sink : Option (Sink (Host η μ)))
    (hmethods : s.runMethod ≠ s.routeMethod) {desk : Desk (Host η μ)} {cs : List Command}
    (hcs : Spoiled s desk.host.registry cs)
    {task : Task (Desk (Host η μ)) Nat} {desk₀ : Desk (Host η μ)} {xs : List Signal}
    {f : Nat → Task (Desk (Host η μ)) Nat}
    (htask : ∀ isOpen reach, task.work isOpen reach desk₀
      = ((((standard call s sink).run cs).bind f).work isOpen reach desk).behind xs false) :
    Refused s task desk₀ cs desk xs := by
  obtain ⟨c, hc, hrun, hnone⟩ := hcs
  obtain ⟨before, c', after, hsplit, hbefore, hc', hwork⟩ :=
    run_refused (standard_asksRegistry call sink hmethods) ⟨c, hc, not_permits hmethods hrun hnone⟩
  refine ⟨before, c', after, hsplit, hbefore, hc', fun isOpen reach => ?_⟩
  rw [htask, hwork]
  rfl

/-- **The wiring of the standard families**, for all settings that are accepted. -/
theorem families_wired (call : Call η μ) (sink : Option (Sink (Host η μ)))
    {arguments : List (Text × Json)} {env : Environment}
    (h : Settings.build arguments env = .ok s) : Wired call s sink where
  shapes := Settings.build_methods h
  entries := standard_table
  live _ _ := rfl
  safe _ _ := rfl
  run hmethods desk cs hcs := by
    refine run_spoiled call sink hmethods hcs (f := fun n => .done (.ok n)) fun isOpen reach => ?_
    rw [Task.bind_done, Task.Progress.behind_nothing]
  runPending hmethods desk hcs := by
    constructor
    · refine run_spoiled call sink hmethods hcs (f := fun n => .done (.ok n)) fun isOpen reach => ?_
      rw [Task.bind_done]
      rfl
    · exact run_spoiled call sink hmethods hcs fun _ _ => rfl
  runFragment hmethods desk raw cs h xs hparse hcs := by
    have hdesk : Spoiled s (Desk.mk desk.pending h).host.registry cs := hcs
    refine run_spoiled call sink hmethods hdesk (f := fun n => .done (.ok n)) fun isOpen reach => ?_
    show ((Task.ofAct (Desk.onHost ((standard call s sink).parse raw))).bind fun cs =>
      (standard call s sink).run cs).work isOpen reach desk = _
    rw [Task.work_ofAct_bind, Task.bind_done]
    simp only [Desk.onHost, Act.focus_apply, hparse]
  merged := standard_table_merged
  never hmethods cs h hcs := validate_navigations (fun c hc => (hcs c hc).trans hmethods) h

/-- Settings that name one method twice. -/
def alike : Settings := { Settings.defaults with runMethod := "e:x", routeMethod := "e:x" }

/-- A host with a command that is not safe, and a route of the same name. -/
def twice : Host Unit Unit where
  registry := ⟨[("x", ⟨(), false⟩)]⟩
  routes := { entries := [("x", none)] }
  memory := ()

/-- Without any variables the two methods are different, and the command is refused. Where one
method is named twice, nobody asks the registry about it. -/
theorem wired_alike : Settings.build [] [] = .ok .defaults ∧ Wired idle .defaults none
    ∧ Refused .defaults ((standard idle .defaults none).run [⟨"e:run", "x", []⟩]) ⟨[], twice⟩
      [⟨"e:run", "x", []⟩] ⟨[], twice⟩ []
    ∧ Settings.build [] (Settings.named "e:x" "e:x") = .ok alike ∧ Wired idle alike none
    ∧ Spoiled alike twice.registry [⟨"e:x", "x", []⟩]
    ∧ (standard idle alike none).validate [⟨"e:x", "x", []⟩] twice = ⟨.ok (), twice, []⟩ := by
  have hdefaults : Settings.build [] [] = .ok .defaults := rfl
  have halike : Settings.build [] (Settings.named "e:x" "e:x") = .ok alike :=
    Settings.build_named (Settings.hasMethodShape_iff.mp (by decide))
      (Settings.hasMethodShape_iff.mp (by decide))
  have hunsafe : ¬ ∃ r, twice.registry.get? "x" = some r ∧ r.isSafe = true := by
    rintro ⟨r, hr, hsafe⟩
    obtain rfl := Option.some.inj hr
    cases hsafe
  have hwired := families_wired idle none hdefaults
  have hwired' := families_wired idle none halike
  refine ⟨hdefaults, hwired, ?_, halike, hwired', ⟨_, List.mem_singleton_self _, rfl, hunsafe⟩, ?_⟩
  · exact hwired.run (by decide) ⟨[], twice⟩ _ ⟨_, List.mem_singleton_self _, rfl, hunsafe⟩
  · exact hwired'.never rfl _ twice fun c hc => List.mem_singleton.mp hc ▸ rfl

end Deeplink.Host

import Deeplink.Proofs.Dispatch.Validation
import Deeplink.Proofs.Host.Noted

/-!
# What the standard families permit

The registry alone says which commands may run, as it is when a sequence is validated. To ask it
changes nothing. Commands are safe if they are registered as such, and routes always are
(specification, 6).

- `Host.Permits`: a route may always run, a command if the registry has it and says that it is safe.
- `Host.refusalOf`: why a command that may not run is refused.
- `Host.AsksRegistry`: the dispatcher asks the registry about commands, and never about routes.
- `Host.validate_of_permits`, `Host.validate_of_refused`: validation leaves everything as it is, and
  refuses the first command that may not run.
- `Host.run_refused`: so a run with such a command does nothing.
-/

namespace Deeplink

/-- A command is safe if its registration says so. -/
theorem Registry.isSafe_eq_true_iff {η : Type} {name : Text} {reg : Registry η} :
    reg.isSafe name = true ↔ ∃ r, reg.get? name = some r ∧ r.isSafe = true := by
  unfold isSafe
  cases reg.get? name with
  | none => simp
  | some r => simp

namespace Host

open Dispatcher (rejection refusalNotice ask asked heard Grants)

variable {η μ : Type} {s : Settings}

/-- Whether a command may run. -/
def Permits (s : Settings) (registry : Registry η) (c : Command) : Prop :=
  c.method = s.routeMethod ∨ c.method = s.runMethod ∧ registry.isSafe c.name = true

/-- Why a command that may not run is refused. -/
def refusalOf (s : Settings) (c : Command) : Refusal :=
  if c.method = s.runMethod then .notSafe c.name else .noFamily c.name

/-- Either every command may run, or there is a first one that may not. -/
theorem permits_or_first (s : Settings) (registry : Registry η) (cs : List Command) :
    (∀ c ∈ cs, Permits s registry c) ∨ ∃ before c after, cs = before ++ c :: after
      ∧ (∀ b ∈ before, Permits s registry b) ∧ ¬ Permits s registry c := by
  induction cs with
  | nil => exact .inl fun _ hc => nomatch hc
  | cons c cs ih =>
    by_cases hc : Permits s registry c
    · rcases ih with hcs | ⟨before, c', after, rfl, hbefore, hc'⟩
      · exact .inl (List.forall_mem_cons.mpr ⟨hc, hcs⟩)
      · exact .inr ⟨c :: before, c', after, rfl, List.forall_mem_cons.mpr ⟨hc, hbefore⟩, hc'⟩
    · exact .inr ⟨[], c, cs, rfl, by simp, hc⟩

/-- A command of the run method may not run if it is not registered as a safe one. -/
theorem not_permits (hmethods : s.runMethod ≠ s.routeMethod) {registry : Registry η} {c : Command}
    (hrun : c.method = s.runMethod)
    (hnone : ¬ ∃ r, registry.get? c.name = some r ∧ r.isSafe = true) : ¬ Permits s registry c := by
  rintro (hroute | ⟨-, hsafe⟩)
  · exact hmethods (hrun.symm.trans hroute)
  · exact hnone (Registry.isSafe_eq_true_iff.mp hsafe)

/-! ## Asking -/

section Asking

variable {call : Call η μ} {sink : Option (Sink (Host η μ))}

/-- Two families, by their methods. -/
theorem lookup_pair {τ : Type} {first second : Text} (hne : first ≠ second) (f g : Family τ)
    (method : Text) : (Table.set second g [(first, f)]).lookup method
      = if method = second then some g else if method = first then some f else none := by
  have hset : Table.set second g [(first, f)] = [(first, f), (second, g)] := if_neg hne
  rw [hset, List.lookup_cons, List.lookup_cons, List.lookup_nil]
  by_cases hfirst : method = first
  · subst hfirst
    rw [if_neg hne, if_pos rfl, beq_self_eq_true]
  · rw [beq_false_of_ne hfirst, if_neg hfirst]
    by_cases hsecond : method = second
    · subst hsecond
      rw [if_pos rfl, beq_self_eq_true]
    · rw [if_neg hsecond, beq_false_of_ne hsecond]

/-- Of two methods that differ, each has its own family. -/
theorem standard_lookup (hmethods : s.runMethod ≠ s.routeMethod) (method : Text) :
    (standard call s sink).table.lookup method
      = if method = s.routeMethod then some (routeFamily call)
        else if method = s.runMethod then some (commandFamily call) else none :=
  lookup_pair hmethods _ _ method

theorem noted_lookup_route (hmethods : s.runMethod ≠ s.routeMethod) :
    (noted call s sink).table.lookup s.routeMethod = some (notedRoutes call) :=
  (lookup_pair hmethods _ _ _).trans (if_pos rfl)

theorem noted_lookup_run (hmethods : s.runMethod ≠ s.routeMethod) :
    (noted call s sink).table.lookup s.runMethod = some (notedCommands call) :=
  (lookup_pair hmethods _ _ _).trans ((if_neg hmethods).trans (if_pos rfl))

/-- A dispatcher that asks as the standard one does: routes are always safe, and of commands the
registry knows, as it is at that time. -/
structure AsksRegistry (s : Settings) (d : Dispatcher (Host η μ)) : Prop where
  route : ∃ family, d.table.lookup s.routeMethod = some family
    ∧ ∀ name h, family.isSafe name h = ⟨.ok true, h, []⟩
  run : ∃ family, d.table.lookup s.runMethod = some family
    ∧ ∀ name h, family.isSafe name h = ⟨.ok (h.registry.isSafe name), h, []⟩
  other : ∀ {method}, method ≠ s.routeMethod → method ≠ s.runMethod → d.table.lookup method = none

variable (call sink)

/-- The standard families ask the registry and nothing else. -/
theorem standard_asksRegistry (hmethods : s.runMethod ≠ s.routeMethod) :
    AsksRegistry s (standard call s sink) where
  route := ⟨routeFamily call, (standard_lookup hmethods _).trans (if_pos rfl), fun _ _ => rfl⟩
  run := ⟨commandFamily call,
    (standard_lookup hmethods _).trans ((if_neg hmethods).trans (if_pos rfl)), fun _ _ => rfl⟩
  other hroute hrun := (standard_lookup hmethods _).trans ((if_neg hroute).trans (if_neg hrun))

/-- The families whose handlers are noted ask the registry and nothing else, too. -/
theorem noted_asksRegistry (hmethods : s.runMethod ≠ s.routeMethod) :
    AsksRegistry s (noted call s sink) where
  route := ⟨notedRoutes call, noted_lookup_route hmethods, fun _ _ => rfl⟩
  run := ⟨notedCommands call, noted_lookup_run hmethods, fun _ _ => rfl⟩
  other hroute hrun :=
    (lookup_pair hmethods _ _ _).trans ((if_neg hroute).trans (if_neg hrun))

variable {call sink} {d : Dispatcher (Host η μ)} {h : Host η μ}

/-- Commands that may run have families. -/
theorem knows_of_permits (hd : AsksRegistry s d) {registry : Registry η} {c : Command}
    (hc : Permits s registry c) : d.knows c = true := by
  rcases hc with hroute | ⟨hrun, -⟩
  · obtain ⟨family, hlookup, -⟩ := hd.route
    rw [Dispatcher.knows, hroute, hlookup, Option.isSome_some]
  · obtain ⟨family, hlookup, -⟩ := hd.run
    rw [Dispatcher.knows, hrun, hlookup, Option.isSome_some]

/-- The registry is asked, and nothing else happens. -/
theorem ask_of_permits (hd : AsksRegistry s d) {c : Command} (hc : Permits s h.registry c) :
    d.ask c h = ⟨.ok (some true), h, []⟩ := by
  rcases hc with hroute | ⟨hrun, hsafe⟩
  · obtain ⟨family, hlookup, hanswer⟩ := hd.route
    rw [← hroute] at hlookup
    rw [Dispatcher.ask_of_lookup hlookup, hanswer]
    rfl
  · obtain ⟨family, hlookup, hanswer⟩ := hd.run
    rw [← hrun] at hlookup
    rw [Dispatcher.ask_of_lookup hlookup, hanswer, hsafe]
    rfl

/-- What is not permitted is refused, in the words for the reason. -/
theorem ask_of_not_permits (hd : AsksRegistry s d) {c : Command} (hc : ¬ Permits s h.registry c) :
    ∃ answer, d.ask c h = ⟨.ok answer, h, []⟩
      ∧ Dispatcher.refusal? c (.ok answer) = some (refusalOf s c) := by
  have hroute : c.method ≠ s.routeMethod := fun hroute => hc (.inl hroute)
  by_cases hrun : c.method = s.runMethod
  · have hsafe : h.registry.isSafe c.name = false := by
      cases hsafe : h.registry.isSafe c.name with
      | false => rfl
      | true => exact absurd (.inr ⟨hrun, hsafe⟩) hc
    obtain ⟨family, hlookup, hanswer⟩ := hd.run
    rw [← hrun] at hlookup
    refine ⟨some false, ?_, ?_⟩
    · rw [Dispatcher.ask_of_lookup hlookup, hanswer, hsafe]
      rfl
    · rw [refusalOf, if_pos hrun]
      rfl
  · refine ⟨none, Dispatcher.ask_of_lookup_none (hd.other hroute hrun) h, ?_⟩
    rw [refusalOf, if_neg hrun]
    rfl

/-- Asking leaves no trace if no answer does. -/
theorem grants_of_asks {cs : List Command}
    (hcs : ∀ c ∈ cs, d.ask c h = ⟨.ok (some true), h, []⟩) :
    d.Grants cs h ∧ d.asked cs h = h ∧ d.heard cs h = [] := by
  induction cs with
  | nil => exact ⟨trivial, rfl, rfl⟩
  | cons c cs ih =>
    obtain ⟨hask, hcs⟩ := List.forall_mem_cons.mp hcs
    obtain ⟨hgrants, hasked, hheard⟩ := ih hcs
    refine ⟨⟨by rw [hask], by rw [hask]; exact hgrants⟩, ?_, ?_⟩
    · show d.asked cs (d.ask c h).state = h
      rw [hask]
      exact hasked
    · show (d.ask c h).trace ++ d.heard cs _ = []
      rw [hask]
      exact hheard

theorem validate_of_asks {cs : List Command}
    (hcs : ∀ c ∈ cs, d.ask c h = ⟨.ok (some true), h, []⟩) : d.validate cs h = ⟨.ok (), h, []⟩ := by
  obtain ⟨hgrants, hasked, hheard⟩ := grants_of_asks hcs
  rw [Dispatcher.validate_of_grants hgrants, hasked, hheard]

/-! ## Validation -/

/-- What is permitted passes, and to ask leaves no trace. -/
theorem validate_of_permits (hd : AsksRegistry s d) {cs : List Command}
    (hcs : ∀ c ∈ cs, Permits s h.registry c) : d.validate cs h = ⟨.ok (), h, []⟩ :=
  validate_of_asks fun c hc => ask_of_permits hd (hcs c hc)

/-- **The first command that may not run is refused**, and everything stays as it is. -/
theorem validate_of_refused (hd : AsksRegistry s d) {before after : List Command} {c : Command}
    (hbefore : ∀ b ∈ before, Permits s h.registry b) (hc : ¬ Permits s h.registry c) :
    d.validate (before ++ c :: after) h
      = ⟨.error (rejection c before.length (refusalOf s c)), h,
        [refusalNotice c before.length (refusalOf s c)]⟩ := by
  obtain ⟨hgrants, hasked, hheard⟩ :=
    grants_of_asks fun b hb => ask_of_permits hd (hbefore b hb)
  obtain ⟨answer, hask, hrefusal⟩ := ask_of_not_permits hd hc
  have hanswer : (d.ask c (d.asked before h)).result = .ok answer := by
    rw [hasked, hask]
  rw [Dispatcher.validate_of_refused hgrants (by rw [hanswer]; exact hrefusal),
    Dispatcher.asked_append, Dispatcher.heard_append, hasked, hheard]
  show (⟨_, (d.ask c h).state, [] ++ ((d.ask c h).trace ++ []) ++ _⟩ : Outcome _ _) = _
  rw [hask]
  rfl

/-! ## Runs -/

/-- **A run with a command that may not run is refused** because of the first such command, whatever
follows the run. Nothing else happens. -/
theorem run_refused (hd : AsksRegistry s d) {cs : List Command} {desk : Desk (Host η μ)}
    (hcs : ∃ c ∈ cs, ¬ Permits s desk.host.registry c) :
    ∃ before c after, cs = before ++ c :: after
      ∧ (∀ b ∈ before, Permits s desk.host.registry b) ∧ ¬ Permits s desk.host.registry c
      ∧ ∀ (f : Nat → Task (Desk (Host η μ)) Nat) isOpen reach,
        ((d.run cs).bind f).work isOpen reach desk
          = ⟨.done (.error (rejection c before.length (refusalOf s c))), desk,
            [refusalNotice c before.length (refusalOf s c)], false⟩ := by
  rcases permits_or_first s desk.host.registry cs with hall | ⟨before, c, after, rfl, hbefore, hc⟩
  · obtain ⟨c, hmem, hc⟩ := hcs
    exact absurd (hall c hmem) hc
  · refine ⟨before, c, after, rfl, hbefore, hc, fun f isOpen reach => ?_⟩
    exact Dispatcher.run_work_of_validate_error (validate_of_refused hd hbefore hc) f isOpen reach

end Asking

end Host

end Deeplink

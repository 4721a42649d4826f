import Deeplink.Proofs.Dispatch.Pending
import Deeplink.Proofs.Host.Noted
import Deeplink.Proofs.Task.Ends

/-!
# Work on the host

Handlers that work on the host alone neither see nor change what is pending. Then a run of commands
does the same wherever the commands have come from.

- `Task.Hosted`: a task on a desk that works on its host alone.
- `Dispatcher.run_hosted`: runners that work on the host make up runs that do.
- `Dispatcher.runFragment_ends_iff`, `Dispatcher.runOnce_ends_iff`: the commands of a fragment are
  run as the pending ones are, and only what is pending then differs.
- `Host.noted_runner_hosted`: handlers that work on the host make runners that do, also when they
  are noted.
-/

namespace Deeplink

variable {ρ α β : Type}

/-- The desk with another host. -/
def Desk.withHost (host : ρ) (desk : Desk ρ) : Desk ρ := { desk with host }

/-- The host is a part of the desk, beside what is pending. -/
theorem Desk.host_isPart : Task.IsPart (Desk.host (ρ := ρ)) withHost where
  part_put _ _ := rfl
  put_part _ := rfl
  put_put _ _ _ := rfl

/-! ## Tasks -/

/-- A task that works on the host alone: it neither sees nor changes what is pending. -/
def Task.Hosted (t : Task (Desk ρ) α) : Prop :=
  ∃ u : Task ρ α, t = u.focus Desk.host Desk.withHost

namespace Task.Hosted

theorem done (r : Except Failure α) : (Task.done r : Task (Desk ρ) α).Hosted := ⟨.done r, rfl⟩

theorem ofAct (x : Act ρ α) : (Task.ofAct (Desk.onHost x)).Hosted :=
  ⟨.ofAct x, (focus_ofAct _ _ x).symm⟩

theorem modify (f : ρ → ρ) :
    (Task.modify fun desk : Desk ρ => desk.withHost (f desk.host)).Hosted :=
  ⟨.modify f, rfl⟩

theorem emit (x : Signal) {t : Task (Desk ρ) α} (h : t.Hosted) : (Task.emit x t).Hosted := by
  obtain ⟨u, rfl⟩ := h
  exact ⟨.emit x u, rfl⟩

theorem attempt {t : Task (Desk ρ) α} (h : t.Hosted) : t.attempt.Hosted := by
  obtain ⟨u, rfl⟩ := h
  exact ⟨u.attempt, (focus_attempt _ _ u).symm⟩

/-- Work on the host, one task after the other, is work on the host. -/
theorem bind {t : Task (Desk ρ) α} {f : α → Task (Desk ρ) β} (h : t.Hosted)
    (hf : ∀ a, (f a).Hosted) : (t.bind f).Hosted := by
  obtain ⟨u, rfl⟩ := h
  obtain ⟨g, hg⟩ := Classical.axiomOfChoice hf
  refine ⟨u.bind g, ?_⟩
  rw [focus_bind, funext hg]

/-- What depends on the state depends on the host only. -/
theorem get_bind {f : ρ → Task (Desk ρ) α} (hf : ∀ host, (f host).Hosted) :
    (Task.get.bind fun desk => f desk.host).Hosted := by
  obtain ⟨g, hg⟩ := Classical.axiomOfChoice hf
  exact ⟨Task.get.bind g, congrArg (Task.act id) (funext fun desk => hg desk.host)⟩

end Task.Hosted

/-! ## Dispatchers -/

namespace Dispatcher

variable {d : Dispatcher ρ}

/-- To settle a run touches nothing at all. -/
theorem settle_hosted (c : Command) (position : Nat) (r : Except Failure Json) :
    (settle (ρ := ρ) c position r).Hosted :=
  settle_cases c position r (fun _ => .emit _ (.done _)) (.done _)

/-- A command is run on the host if its runner works there. -/
theorem runAt_hosted {c : Command} (hrunner : (d.runner c).Hosted) (position : Nat) :
    (d.runAt c position).Hosted :=
  runAt_cases d c position (.bind hrunner.attempt (settle_hosted c position)) (.done _)

/-- Commands are run on the host, one after the other, if their runners work there. -/
theorem runFrom_hosted (hrunner : ∀ c, (d.runner c).Hosted) (position : Nat) (cs : List Command) :
    (d.runFrom position cs).Hosted := by
  induction cs generalizing position with
  | nil => exact .done _
  | cons c cs ih => exact .bind (runAt_hosted (hrunner c) position) fun _ => ih (position + 1)

/-- **Runners that work on the host make up runs that do.** -/
theorem run_hosted (hrunner : ∀ c, (d.runner c).Hosted) (cs : List Command) : (d.run cs).Hosted :=
  .bind (.ofAct (d.validate cs)) fun _ => .bind (runFrom_hosted hrunner 0 cs) fun _ => .done _

/-- What is left of the pending commands when a run of them has ended. -/
def left (cs : List Command) : Except Failure Nat → List Command
  | .ok _ => []
  | .error _ => cs

section Ends

variable {H : ρ → ρ → Prop} {work : Task ρ Nat} {desk desk' : Desk ρ} {y : Except Failure Nat}

/-- The commands of a fragment are run on the host, and what is pending stays. -/
theorem runFragment_ends_iff (hsink : d.sink = none) {raw : Option Text}
    (hwork : d.run (Fragment.commands d.methods raw) = work.focus Desk.host Desk.withHost) :
    Task.Ends (Task.OnPart Desk.host Desk.withHost H) (d.runFragment raw) desk y desk'
      ↔ ∃ host, Task.Ends H work desk.host y host ∧ desk' = desk.withHost host := by
  -- without a sink, reading the fragment touches nothing
  have hparse : Desk.onHost (d.parse raw) desk
      = ⟨.ok (Fragment.commands d.methods raw), desk,
        (Fragment.diagnostics d.methods raw).map fun x => .notice x.notice⟩ := by
    rw [Desk.onHost, Act.focus_apply, parse, hsink, Fragment.parse_logged]
  have hok : (Desk.onHost (d.parse raw) desk).result = .ok (Fragment.commands d.methods raw) :=
    congrArg Outcome.result hparse
  show Task.Ends _ ((Task.ofAct (Desk.onHost (d.parse raw))).bind d.run) desk y desk' ↔ _
  rw [Task.Ends.ofAct_bind_iff hok, hparse, hwork]
  exact Task.Ends.focus_iff Desk.host_isPart

/-- The pending commands are run on the host, and then they are cleared, or left. -/
theorem runOnce_ends_iff (hwork : d.run desk.pending = work.focus Desk.host Desk.withHost) :
    Task.Ends (Task.OnPart Desk.host Desk.withHost H) d.runOnce desk y desk'
      ↔ ∃ host, Task.Ends H work desk.host y host ∧ desk' = ⟨left desk.pending y, host⟩ := by
  have hrun {y' : Except Failure Nat} {desk₁ : Desk ρ} :
      Task.Ends (Task.OnPart Desk.host Desk.withHost H) d.runPending desk y' desk₁
        ↔ ∃ host, Task.Ends H work desk.host y' host ∧ desk₁ = desk.withHost host := by
    rw [← Task.Ends.focus_iff Desk.host_isPart, ← hwork]
    constructor
    · exact Task.Ends.of_get_bind
    · exact fun h => .act h
  rw [runOnce_eq, Task.Ends.bind_iff]
  constructor
  · rintro (⟨n, desk₁, hn, hclear⟩ | ⟨e, rfl, he⟩)
    · obtain ⟨host, hends, rfl⟩ := hrun.mp hn
      cases hclear with
      | act hdone =>
        cases hdone with
        | done => exact ⟨host, hends, rfl⟩
    · obtain ⟨host, hends, rfl⟩ := hrun.mp he
      exact ⟨host, hends, rfl⟩
  · rintro ⟨host, hends, rfl⟩
    cases y with
    | ok n => exact .inl ⟨n, _, hrun.mpr ⟨host, hends, rfl⟩, .act (.done _ _)⟩
    | error e => exact .inr ⟨e, rfl, hrun.mpr ⟨host, hends, rfl⟩⟩

end Ends

end Dispatcher

/-! ## The standard families -/

namespace Host

variable {η μ : Type}

section Hosted

variable {call : Call η μ}

/-- To note the call of a handler is work on the host. -/
theorem noting_hosted (hcall : ∀ handler args, (call handler args).Hosted) (kind : Kind)
    (name : Text) (handler : η) (args : Args) : (noting call kind name handler args).Hosted := by
  have hnote (event : Event η) : (Task.modify (note (μ := μ) event)).Hosted :=
    .modify fun host : Host η (Noted η μ) =>
      { host with memory := { host.memory with events := host.memory.events ++ [event] } }
  have hhandler : ((call handler args).focus (Desk.seen forget) rememberOn).Hosted := by
    obtain ⟨u, hu⟩ := hcall handler args
    refine ⟨u.focus forget remember, ?_⟩
    -- the host of what is seen of a desk is what is seen of its host
    rw [hu, Task.focus_focus, Task.focus_focus]
    rfl
  exact .bind (hnote _) fun _ => .bind hhandler.attempt fun r => .bind (hnote _) fun _ => .done r

/-- The family of commands works on the host if all handlers do. -/
theorem runCommand_hosted (hcall : ∀ handler args, (call handler args).Hosted) (name : Text)
    (args : Args) : (runCommand call name args).Hosted := by
  rw [runCommand_eq]
  refine .get_bind (f := fun host => runFound call name args (host.registry.get? name))
    fun host => ?_
  cases host.registry.get? name with
  | none => exact .done _
  | some r => exact .emit _ (hcall r.handler args)

/-- The family of routes works on the host if all handlers do; it notes the arrival there. -/
theorem navigate_hosted (hcall : ∀ handler args, (call handler args).Hosted) (name : Text)
    (args : Args) : (navigate call name args).Hosted := by
  rw [navigate_eq]
  refine .get_bind (f := fun host => visitFound call name args (host.routes.get? name))
    fun host => ?_
  cases host.routes.get? name with
  | none => exact .done _
  | some handler =>
    have hvisit : (visit call handler args).Hosted := by
      cases handler with
      | none => exact .done _
      | some handler => exact hcall handler args
    have harrive : (Task.modify (updateRoutes (η := η) (μ := μ) (RouteTable.arrive name))).Hosted :=
      .modify fun host : Host η μ => { host with routes := host.routes.arrive name }
    exact .bind hvisit fun _ => .bind harrive fun _ => .emit _ (.done _)

/-- **Handlers that work on the host make runners that do**, and to note them changes nothing of
that. -/
theorem noted_runner_hosted (hcall : ∀ handler args, (call handler args).Hosted) (s : Settings)
    (c : Command) : ((noted call s none).runner c).Hosted := by
  unfold Dispatcher.runner
  by_cases hroute : c.method = s.routeMethod
  · have hlookup : (noted call s none).table.lookup c.method = some (notedRoutes call) := by
      rw [hroute]
      exact Keyed.lookup_set_self _ _ _
    rw [hlookup]
    exact navigate_hosted (noting_hosted hcall .route c.name) c.name c.args
  · have hlookup : (noted call s none).table.lookup c.method
        = [(s.runMethod, notedCommands call)].lookup c.method :=
      Keyed.lookup_set_of_ne _ _ hroute
    rw [hlookup, List.lookup_cons]
    cases c.method == s.runMethod with
    | true => exact runCommand_hosted (noting_hosted hcall .command c.name) c.name c.args
    | false => exact .done _

end Hosted

end Host

end Deeplink

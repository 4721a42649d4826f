import Deeplink.Proofs.Dispatch.Calls
import Deeplink.Proofs.Dispatch.History
import Deeplink.Proofs.Host.Permission

/-!
# What is registered

Commands are registered and unregistered, and routes are registered, while a dispatcher is asked for
one thing after another. What is said about a name last decides whether it is registered, and how.

- `Host.Operation`: what can be done on a host.
- `Host.Latest`: the last operation about a name is a certain registration.
- `Host.History`: the operations since nothing was registered.
- `Host.History.get?_eq_some_iff`: a registry holds what has been registered last.
-/

namespace Deeplink

/-! ## The registry -/

namespace Registry

variable {η : Type} {name other : Text}

@[simp] theorem get?_register_self (r : Registration η) (reg : Registry η) :
    (reg.register name r).get? name = some r :=
  Keyed.lookup_set_self name r reg.entries

/-- To register a name does not touch the others. -/
theorem get?_register_of_ne (h : other ≠ name) (r : Registration η) (reg : Registry η) :
    (reg.register name r).get? other = reg.get? other :=
  Keyed.lookup_set_of_ne r reg.entries h

@[simp] theorem get?_unregister_self (reg : Registry η) :
    (reg.unregister name).get? name = none := by
  obtain ⟨entries⟩ := reg
  show (entries.filter (·.1 ≠ name)).lookup name = none
  induction entries with
  | nil => rfl
  | cons entry entries ih =>
    obtain ⟨key, r⟩ := entry
    by_cases hkey : key = name
    · rw [List.filter_cons_of_neg (by simp [hkey])]
      exact ih
    · rw [List.filter_cons_of_pos (by simp [hkey]), List.lookup_cons,
        beq_false_of_ne (Ne.symm hkey)]
      exact ih

/-- To unregister a name does not touch the others. -/
theorem get?_unregister_of_ne (h : other ≠ name) (reg : Registry η) :
    (reg.unregister name).get? other = reg.get? other := by
  obtain ⟨entries⟩ := reg
  show (entries.filter (·.1 ≠ name)).lookup other = entries.lookup other
  induction entries with
  | nil => rfl
  | cons entry entries ih =>
    obtain ⟨key, r⟩ := entry
    by_cases hkey : key = name
    · -- what is taken out is not what is looked for
      have hother : (other == key) = false := beq_false_of_ne (hkey ▸ h)
      rw [List.filter_cons_of_neg (by simp [hkey]), List.lookup_cons, hother]
      exact ih
    · rw [List.filter_cons_of_pos (by simp [hkey]), List.lookup_cons, List.lookup_cons, ih]

end Registry

namespace Host

variable {η μ : Type}

/-! ## Operations -/

/-- What can be done on a host, apart from what the handlers do. -/
inductive Operation (η : Type) where
  | register (name : Text) (r : Registration η)
  | unregister (name : Text)
  | registerRoute (name : Text) (handler : Option η)
  | dispatch (operation : Dispatcher.Operation)

/-- The registry stays the same. -/
def SameRegistry (h h' : Host η μ) : Prop := h'.registry = h.registry

theorem SameRegistry.isPreorder : IsPreorder (SameRegistry (η := η) (μ := μ)) where
  refl _ := rfl
  trans h h' := h'.trans h

/-- On a desk, it does. -/
def SameRegistryOn (desk desk' : Desk (Host η μ)) : Prop := SameRegistry desk.host desk'.host

theorem SameRegistryOn.isPreorder : IsPreorder (SameRegistryOn (η := η) (μ := μ)) where
  refl _ := rfl
  trans h h' := h'.trans h

/-- Changes the registry. -/
def updateRegistry (f : Registry η → Registry η) (desk : Desk (Host η μ)) : Desk (Host η μ) :=
  { desk with host := { desk.host with registry := f desk.host.registry } }

namespace Operation

def task (d : Dispatcher (Host η μ)) : Operation η → Task (Desk (Host η μ)) Unit
  | .register name r => Task.modify (updateRegistry (Registry.register name r))
  | .unregister name => Task.modify (updateRegistry (Registry.unregister name))
  | .registerRoute name handler => Task.modify (updateRoutes (RouteTable.register name handler))
  | .dispatch operation => operation.task d

/-- The registry after an operation. -/
def after (reg : Registry η) : Operation η → Registry η
  | .register name r => reg.register name r
  | .unregister name => reg.unregister name
  | .registerRoute _ _ | .dispatch _ => reg

/-- Whether an operation says something about the registration of a name. -/
def About (name : Text) : Operation η → Prop
  | .register other _ | .unregister other => other = name
  | .registerRoute _ _ | .dispatch _ => False

/-- What is said about a name is what the registry holds, and otherwise it holds what it held. -/
theorem get?_after (name : Text) (r : Registration η) (operation : Operation η)
    (reg : Registry η) : (operation.after reg).get? name = some r
      ↔ operation = .register name r ∨ ¬ operation.About name ∧ reg.get? name = some r := by
  cases operation with
  | register other r' =>
    by_cases h : other = name
    · subst h
      simp [after, About]
    · simp [after, About, h, Registry.get?_register_of_ne (Ne.symm h)]
  | unregister other =>
    by_cases h : other = name
    · subst h
      simp [after, About]
    · simp [after, About, h, Registry.get?_unregister_of_ne (Ne.symm h)]
  | registerRoute other handler => simp [after, About]
  | dispatch operation => simp [after, About]

end Operation

/-- The last of the operations that say something about a name registers it in a certain way. -/
def Latest (name : Text) (r : Registration η) (ops : List (Operation η)) : Prop :=
  ∃ before after, ops = before ++ .register name r :: after
    ∧ ∀ operation ∈ after, ¬ operation.About name

/-- The last operation about a name decides; the induction on histories goes by their ends. -/
theorem latest_concat {name : Text} {r : Registration η} {ops : List (Operation η)}
    {operation : Operation η} : Latest name r (ops ++ [operation])
      ↔ operation = .register name r ∨ ¬ operation.About name ∧ Latest name r ops := by
  constructor
  · rintro ⟨before, after, hops, hafter⟩
    rcases List.eq_nil_or_concat after with rfl | ⟨after, last, rfl⟩
    · obtain ⟨-, hlast⟩ := List.append_inj' hops rfl
      exact .inl (List.cons.inj hlast).1
    · rw [List.concat_eq_append, ← List.cons_append, ← List.append_assoc] at hops
      obtain ⟨rfl, hlast⟩ := List.append_inj' hops rfl
      obtain rfl := (List.cons.inj hlast).1
      refine .inr ⟨hafter operation (by simp), before, after, rfl, fun other hother => ?_⟩
      exact hafter other (by simp [hother])
  · rintro (rfl | ⟨habout, before, after, rfl, hafter⟩)
    · exact ⟨ops, [], rfl, by simp⟩
    · refine ⟨before, after ++ [operation], by simp, fun other hother => ?_⟩
      rcases List.mem_append.mp hother with hother | hother
      · exact hafter other hother
      · obtain rfl := List.mem_singleton.mp hother
        exact habout

/-! ## Histories -/

/-- The operations since nothing was registered, and the desk after them. Each has ended, in
whatever way, before the next one begins; while they are suspended, and between them, anything may
happen that leaves the registry alone. -/
inductive History (d : Dispatcher (Host η μ)) : List (Operation η) → Desk (Host η μ) → Prop where
  | begun {desk : Desk (Host η μ)} (h : desk.host.registry = {}) : History d [] desk
  | settled {before : List (Operation η)} {desk desk₁ desk' : Desk (Host η μ)}
      (h : History d before desk) (hothers : SameRegistryOn desk desk₁) {operation : Operation η}
      {r : Except Failure Unit}
      (hends : Task.Ends SameRegistryOn (operation.task d) desk₁ r desk') :
      History d (before ++ [operation]) desk'

section Steps

variable {d : Dispatcher (Host η μ)} {ops : List (Operation η)} {desk : Desk (Host η μ)}

/-- A registration is over at once. -/
theorem History.registered (h : History d ops desk) (name : Text) (r : Registration η) :
    History d (ops ++ [.register name r]) (updateRegistry (Registry.register name r) desk) :=
  .settled h rfl (.act (.done (.ok ()) _))

/-- So is a load without a sink. -/
theorem History.loaded (hd : d.sink = none) (h : History d ops desk) (raw : Option Text) :
    History d (ops ++ [.dispatch (.load raw)]) ⟨Fragment.commands d.methods raw, desk.host⟩ :=
  .settled h rfl (Dispatcher.ends_load SameRegistryOn.isPreorder hd raw desk)

end Steps

section Registry

variable {call : Call η μ} {s : Settings} {sink : Option (Sink (Host η μ))}

/-- Neither the handlers nor the sink touch the registry. -/
structure LeaveRegistry (call : Call η μ) (sink : Option (Sink (Host η μ))) : Prop where
  call : ∀ handler args, (call handler args).Keeps SameRegistryOn
  sink : Fragment.SinkKeeps SameRegistry sink

/-- What both families keep, the runners of the standard dispatcher keep. -/
theorem standard_runner_keeps (hmethods : s.runMethod ≠ s.routeMethod)
    {R : Desk (Host η μ) → Desk (Host η μ) → Prop}
    (hcommand : ∀ name args, (runCommand call name args).Keeps R)
    (hroute : ∀ name args, (navigate call name args).Keeps R) (c : Command) :
    ((standard call s sink).runner c).Keeps R := by
  unfold Dispatcher.runner
  by_cases hr : c.method = s.routeMethod
  · rw [standard_lookup hmethods, if_pos hr]
    exact hroute c.name c.args
  · by_cases hc : c.method = s.runMethod
    · rw [standard_lookup hmethods, if_neg hr, if_pos hc]
      exact hcommand c.name c.args
    · rw [standard_lookup hmethods, if_neg hr, if_neg hc]
      trivial

/-- To ask whether a command may run touches nothing. -/
theorem standard_ask_keeps (hmethods : s.runMethod ≠ s.routeMethod)
    {R : Host η μ → Host η μ → Prop} (hR : IsPreorder R) (c : Command) :
    ((standard call s sink).ask c).Keeps R := by
  unfold Dispatcher.ask
  by_cases hr : c.method = s.routeMethod
  · rw [standard_lookup hmethods, if_pos hr]
    exact .same hR fun _ => rfl
  · by_cases hc : c.method = s.runMethod
    · rw [standard_lookup hmethods, if_neg hr, if_pos hc]
      exact .same hR fun _ => rfl
    · rw [standard_lookup hmethods, if_neg hr, if_neg hc]
      exact .same hR fun _ => rfl

/-- The family of commands does no more than its handlers. -/
theorem runCommand_keeps {R : Desk (Host η μ) → Desk (Host η μ) → Prop} (hR : ∀ desk, R desk desk)
    (hcall : ∀ handler args, (call handler args).Keeps R) (name : Text) (args : Args) :
    (runCommand call name args).Keeps R := by
  rw [runCommand_eq]
  refine .bind (.get hR) fun desk => ?_
  cases desk.host.registry.get? name with
  | none => trivial
  | some r => exact hcall r.handler args

/-- The family of routes does no more than its handlers, but for the arrival that is noted when a
route has been visited. -/
theorem navigate_keeps {R : Desk (Host η μ) → Desk (Host η μ) → Prop} (hR : ∀ desk, R desk desk)
    (hcall : ∀ handler args, (call handler args).Keeps R)
    (harrive : ∀ name desk, R desk (updateRoutes (RouteTable.arrive name) desk)) (name : Text)
    (args : Args) : (navigate call name args).Keeps R := by
  rw [navigate_eq]
  refine .bind (.get hR) fun desk => ?_
  cases desk.host.routes.get? name with
  | none => trivial
  | some handler =>
    refine .bind ?_ fun v => .bind (.modify (harrive name)) fun _ => trivial
    cases handler with
    | none => trivial
    | some handler => exact hcall handler args

/-- What the dispatcher is asked for leaves the registry alone. -/
theorem dispatch_keeps_registry (hmethods : s.runMethod ≠ s.routeMethod)
    (h : LeaveRegistry call sink) (operation : Dispatcher.Operation) :
    (operation.task (standard call s sink)).Keeps SameRegistryOn := by
  have hrefl := (SameRegistryOn.isPreorder (η := η) (μ := μ)).refl
  refine operation.task_keeps SameRegistry.isPreorder
    (standard_ask_keeps hmethods SameRegistry.isPreorder) h.sink
    (standard_runner_keeps hmethods ?_ ?_)
  · exact runCommand_keeps hrefl h.call
  · exact navigate_keeps hrefl h.call fun _ _ => rfl

/-- An operation does to the registry what it says, and otherwise nothing. -/
theorem Operation.registry_of_ends (hmethods : s.runMethod ≠ s.routeMethod)
    (h : LeaveRegistry call sink) {operation : Operation η} {desk desk' : Desk (Host η μ)}
    {r : Except Failure Unit}
    (hends : Task.Ends SameRegistryOn (operation.task (standard call s sink)) desk r desk') :
    desk'.host.registry = operation.after desk.host.registry := by
  cases operation with
  | dispatch operation =>
    exact hends.keeps SameRegistryOn.isPreorder id (dispatch_keeps_registry hmethods h operation)
  | _ =>
    cases hends with
    | act hdone =>
      cases hdone with
      | done => rfl

/-- **A registry holds what has been registered last**, if it has not been unregistered since. -/
theorem History.get?_eq_some_iff (hmethods : s.runMethod ≠ s.routeMethod)
    (h : LeaveRegistry call sink) {ops : List (Operation η)} {desk : Desk (Host η μ)}
    (hhistory : History (standard call s sink) ops desk) (name : Text) (r : Registration η) :
    desk.host.registry.get? name = some r ↔ Latest name r ops := by
  induction hhistory with
  | begun hnothing =>
    rw [hnothing]
    constructor
    · rintro ⟨⟩
    · rintro ⟨before, after, hops, -⟩
      cases before <;> cases hops
  | @settled before desk desk₁ desk' _ hothers operation _ hends ih =>
    have hregistry : desk₁.host.registry = desk.host.registry := hothers
    rw [Operation.registry_of_ends hmethods h hends, Operation.get?_after, latest_concat, hregistry,
      ih]

end Registry

end Host

end Deeplink

import Deeplink.Proofs.Dispatch.Pending
import Deeplink.Proofs.Http.Parsing

/-!
# Fragments that are loaded

The commands of a fragment become the pending ones before the answer is made. What cannot be sent
has replaced them all the same. This is the endpoint that loads a fragment (specification, 6).

- `Http.Service.Takes`: the body of a request gives a fragment, and no dispatch is under way.
- `Http.Service.load_taken`: then the commands of the fragment are the pending ones, and the answer
  lists them.
- `Http.Service.load_declined`: otherwise nothing but the settings is touched.
- `Http.Service.pending_answered`: the pending commands are listed, and nothing is touched.
- `Http.Service.load_answered`: which commands are pending after each answer.
-/

namespace Deeplink

/-! ## Bodies -/

/-- Two acts in a row fail if one of them does. -/
theorem Act.error_of_bind {σ α β : Type} {x : Act σ α} {f : α → Act σ β} {s : σ} {e : Failure}
    (h : ((x >>= f) s).result = .error e) : (x s).result = .error e
      ∨ ∃ a, (x s).result = .ok a ∧ (f a (x s).state).result = .error e := by
  cases hx : (x s).result with
  | ok a =>
    rw [bind_of_ok hx] at h
    exact .inr ⟨a, rfl, h⟩
  | error e' =>
    rw [bind_of_error hx] at h
    exact .inl (congrArg Except.error (Except.error.inj h))

section Fragments

variable {store : Settings.Store} {e : Failure}

/-- Only settings that cannot be read at all keep the length of a text from being checked. -/
theorem FragmentRequest.withinLimit_error {t : Text}
    (h : (withinLimit t store).result = .error e) :
    ∃ inside, e = Failure.ofSettings (.nesting inside) := by
  unfold withinLimit at h
  rcases Act.error_of_bind h with h | ⟨settings, -, h⟩
  · cases h
  · rcases settings with (errors | cause | inside) | settings
    · cases h
    · cases h
    · exact ⟨inside, (Except.error.inj h).symm⟩
    · cases h

theorem FragmentRequest.check_error {otherwise : Problem} {v : Json}
    (h : (check otherwise v store).result = .error e) :
    ∃ inside, e = Failure.ofSettings (.nesting inside) := by
  cases v with
  | obj members =>
    cases hmember : Json.member? "hash" members with
    | none =>
      simp only [check, hmember] at h
      cases h
    | some v =>
      cases v with
      | str t =>
        simp only [check, hmember] at h
        rcases Act.error_of_bind h with h | ⟨checked, -, h⟩
        · exact withinLimit_error h
        · cases h
      | _ =>
        simp only [check, hmember] at h
        cases h
  | _ => cases h

/-- The same holds of a body. -/
theorem Http.Body.fragment_error {body : Body} (h : (body.fragment store).result = .error e) :
    ∃ inside, e = Failure.ofSettings (.nesting inside) := by
  cases body with
  | data v =>
    rcases Act.error_of_bind h with h | ⟨checked, -, h⟩
    · exact FragmentRequest.check_error h
    · cases h
  | _ => cases h

end Fragments

namespace Http

variable {ρ : Type}

/-- The application with other pending commands. -/
def App.withPending (cs : List Command) (app : App ρ) : App ρ :=
  { app with desk := { app.desk with pending := cs } }

namespace Service

/-! ## Loads -/

/-- The body of a request gives a fragment, and no dispatch is under way. -/
def Takes (s : Service ρ) (r : Request) (app : App ρ) (hash : Text) : Prop :=
  app.isBusy = false ∧ ((s.framework.body r).fragment app.settings).result = .ok (.ok hash)

/-- The application once the body of a request has been checked, for which the settings may have to
be built. -/
def checked (s : Service ρ) (r : Request) (app : App ρ) : App ρ :=
  { app with settings := ((s.framework.body r).fragment app.settings).state }

section Load

variable (s : Service ρ) {r : Request} (isOpen : Text → Bool) (reach : Task.Reach) {app : App ρ}

/-- While no dispatch is under way, the commands of a fragment become the pending ones, and they are
listed. -/
theorem load_work (hsink : s.dispatcher.sink = none) (hash : Text) (hidle : app.isBusy = false) :
    ∃ trace, ((answering (s.load hash)).attempt.bind (s.conclude r)).work isOpen reach app
      = ⟨.done (.ok (s.listReply r (Fragment.commands s.dispatcher.methods (some hash)))),
        app.withPending (Fragment.commands s.dispatcher.methods (some hash)), trace, false⟩ := by
  let cs := Fragment.commands s.dispatcher.methods (some hash)
  -- a look at the mark, an act on the desk, and then the commands that it has given
  have hact : answering (s.load hash)
      = (Task.ofAct ensureIdle).bind fun _ => (Task.ofAct ((s.dispatcher.load (some hash)).focus
        App.desk fun desk app => { app with desk })).bind fun cs => answering (s.sent cs) := by
    show ((Task.ofAct ensureIdle).bind fun _ => (App.onDesk (Task.ofAct _)).bind s.sent).bind _ = _
    rw [App.onDesk, Task.focus_ofAct, Task.bind_assoc]
    congr 1
    funext _
    rw [Task.bind_assoc]
    rfl
  have hparse : s.dispatcher.parse (some hash) app.desk.host = ⟨.ok cs, app.desk.host,
      (Fragment.diagnostics s.dispatcher.methods (some hash)).map fun d => .notice d.notice⟩ := by
    rw [Dispatcher.parse, hsink, Fragment.parse_logged]
  obtain ⟨trace, hload⟩ := Dispatcher.load_of_ok (congrArg Outcome.result hparse)
  rw [hparse] at hload
  obtain ⟨trace', hwork⟩ := s.answering_sent_work r cs isOpen reach (app.withPending cs)
  rw [hact, Task.attempt_bind_bind, Task.work_ofAct_attempt_bind, ensureIdle_apply, hidle]
  simp only [Bool.false_eq_true, if_false, Task.caught_ok]
  rw [Task.attempt_bind_bind, Task.work_ofAct_attempt_bind, Act.focus_apply, hload]
  have hput : ({ app with desk := ⟨cs, app.desk.host⟩ } : App ρ) = app.withPending cs := rfl
  exact ⟨_, by rw [Task.caught_ok, hput, hwork]; rfl⟩

/-- A request that is taken is answered with a list of the commands that are pending from then
on. -/
theorem load_taken (hsink : s.dispatcher.sink = none)
    (hr : Address.ofRequest r = .endpoint .load) {hash : Text} (h : s.Takes r app hash) :
    ∃ trace, (s.respond r).resume isOpen reach app
      = ⟨.done (.ok (s.listReply r (Fragment.commands s.dispatcher.methods (some hash)))),
        (s.checked r app).withPending (Fragment.commands s.dispatcher.methods (some hash)), trace,
        false⟩ := by
  obtain ⟨hidle, hhash⟩ := h
  have hidle : (s.checked r app).isBusy = false := hidle
  obtain ⟨trace, hwork⟩ := s.load_work (r := r) isOpen reach hsink hash hidle
  rw [s.resume_respond hr, entry, onBody_work, hhash, Task.caught_ok, onFragment_ok]
  exact ⟨_, by rw [← checked, hwork]; rfl⟩

/-- A request that is not taken is answered otherwise, and nothing but the settings, which may have
to be built, is touched. -/
theorem load_declined (hr : Address.ofRequest r = .endpoint .load)
    (h : ∀ hash, ¬ s.Takes r app hash) :
    ∃ reply trace, (s.respond r).resume isOpen reach app
        = ⟨.done (.ok reply), s.checked r app, trace, false⟩
      ∧ reply.response.status ≠ 200 := by
  rw [s.resume_respond hr, entry, onBody_work, ← checked]
  cases hbody : ((s.framework.body r).fragment app.settings).result with
  | error e =>
    obtain ⟨inside, rfl⟩ := Body.fragment_error hbody
    obtain ⟨x, trace, hwork, hsome, hreply⟩ := s.conclude_error_work r
      (Failure.ofSettings (.nesting inside)) isOpen reach (s.checked r app)
    obtain ⟨reply, rfl⟩ := hsome rfl
    refine ⟨reply, _, by rw [Task.caught, hwork]; rfl, ?_⟩
    rcases (hreply reply rfl).2 with hstatus | ⟨error, hfault, -⟩
    · rw [hstatus]
      decide
    · cases hfault
  | ok result =>
    rcases result with (_ | errors) | hash
    · exact ⟨_, _, rfl, (by decide : 400 ≠ 200)⟩
    · exact ⟨_, _, rfl, (by decide : 400 ≠ 200)⟩
    · -- the body gives a fragment, so that a dispatch must be under way
      have hbusy : (s.checked r app).isBusy = true := by
        cases hbusy : app.isBusy with
        | true => exact hbusy
        | false => exact absurd ⟨hbusy, hbody⟩ (h hash)
      obtain ⟨x, trace, hwork, hsome, hreply⟩ := s.conclude_error_work r busy isOpen reach
        (s.checked r app)
      obtain ⟨reply, rfl⟩ := hsome rfl
      refine ⟨reply, _, by
        rw [Task.caught_ok, onFragment_ok, s.load_work_of_busy r hash _ hbusy, hwork]; rfl, ?_⟩
      rcases (hreply reply rfl).2 with hstatus | ⟨error, hfault, hstatus⟩
      · rw [hstatus]
        decide
      · obtain rfl := Fault.command.inj hfault
        rw [hstatus]
        decide

/-- The pending commands are listed, and nothing is touched. -/
theorem pending_answered (hr : Address.ofRequest r = .endpoint .pending) (app : App ρ) :
    ∃ trace, (s.respond r).resume isOpen reach app
      = ⟨.done (.ok (s.listReply r app.desk.pending)), app, trace, false⟩ := by
  rw [s.resume_respond hr]
  exact s.answering_sent_work r app.desk.pending isOpen reach app

/-- A list is the same for every request. -/
theorem listReply_same (r r' : Request) (cs : List Command) :
    (s.listReply r cs).response.status = (s.listReply r' cs).response.status
      ∧ (s.listReply r cs).response.content = (s.listReply r' cs).response.content := by
  unfold listReply
  cases Command.sentList s.framework.carrier cs <;> exact ⟨rfl, rfl⟩

end Load

/-! ## Answers -/

/-- What a request to load a fragment comes to, by the reply that it is given. -/
structure LoadsBy (s : Service ρ) (r : Request) (app : App ρ) (reply : Reply) (app' : App ρ) :
    Prop where
  /-- Nothing but the pending commands is touched, and the settings, which may have to be built. -/
  frame : app' = (s.checked r app).withPending app'.desk.pending
  /-- If commands are listed, they are those of the fragment, and they are pending; they are listed
  again to everybody who asks for what is pending then. -/
  listed : reply.response.status = 200 → ∃ hash cs, s.Takes r app hash
    ∧ (s.dispatcher.parse (some hash) app.desk.host).result = .ok cs ∧ app'.desk.pending = cs
    ∧ (reply.response.content = .data (Command.listToJson cs) ↔ ∀ c ∈ cs, c.IsCarried)
    ∧ ∀ r', Address.ofRequest r' = .endpoint .pending → ∀ isOpen reach, ∃ again trace,
      (s.respond r').resume isOpen reach app' = ⟨.done (.ok again), app', trace, false⟩
      ∧ again.response.status = 200 ∧ again.response.content = reply.response.content
  /-- With any other answer the pending commands are what they were, but for one case: a command of
  the fragment cannot be sent. -/
  kept : reply.response.status ≠ 200 → app'.desk.pending = app.desk.pending
    ∨ ∃ hash cs, s.Takes r app hash
      ∧ (s.dispatcher.parse (some hash) app.desk.host).result = .ok cs
      ∧ ∃ c ∈ cs, c.sendFault? s.framework.carrier ≠ none
  /-- In this case they are lost: the commands of the fragment are pending, and the answer is an
  internal error. -/
  lost : ∀ hash cs, s.Takes r app hash →
    (s.dispatcher.parse (some hash) app.desk.host).result = .ok cs →
    (∃ c ∈ cs, c.sendFault? s.framework.carrier ≠ none) →
    reply.response.status = 500 ∧ app'.desk.pending = cs

/-- **A request to load a fragment is answered in the turn in which it enters its endpoint.** The
commands of the fragment are pending if the answer lists them, and the commands before stay if it
does not, unless a command of the fragment cannot be sent. -/
theorem load_answered (table : Table ρ) (framework : Framework)
    (hframework : framework.Lawful) (now : Text) (app : App ρ) {r : Request}
    (hr : Address.ofRequest r = .endpoint .load) (isOpen : Text → Bool) (reach : Task.Reach) :
    let s : Service ρ := ⟨⟨table, none⟩, framework, now⟩
    ∃ reply app' trace, (s.respond r).resume isOpen reach app
        = ⟨.done (.ok reply), app', trace, false⟩
      ∧ s.LoadsBy r app reply app' := by
  intro s
  by_cases htakes : ∃ hash, s.Takes r app hash
  · obtain ⟨hash, htakes⟩ := htakes
    let cs := Fragment.commands s.dispatcher.methods (some hash)
    have hparse : (s.dispatcher.parse (some hash) app.desk.host).result = .ok cs :=
      congrArg Outcome.result (Fragment.parse_logged _ _ _)
    -- a body gives no second fragment
    have hunique : ∀ hash' cs', s.Takes r app hash' →
        (s.dispatcher.parse (some hash') app.desk.host).result = .ok cs' → cs' = cs := by
      rintro hash' cs' ⟨-, hhash'⟩ hcs'
      rw [htakes.2] at hhash'
      cases hhash'
      exact Except.ok.inj (hcs'.symm.trans hparse)
    obtain ⟨trace, hwork⟩ := s.load_taken isOpen reach rfl hr htakes
    refine ⟨_, _, trace, hwork, rfl, fun hstatus => ?_, fun hstatus => ?_, ?_⟩
    · refine ⟨hash, cs, htakes, hparse, rfl, ?_, fun r' hr' isOpen' reach' => ?_⟩
      · rw [← s.listReply_faithful hframework.carrier r (Fragment.commands_nodup _ _)]
        exact ⟨fun hcontent => ⟨hstatus, hcontent⟩, fun h => h.2⟩
      · obtain ⟨trace', hagain⟩ := s.pending_answered isOpen' reach' hr'
          ((s.checked r app).withPending cs)
        obtain ⟨hsame, hcontent⟩ := s.listReply_same r' r cs
        exact ⟨_, trace', hagain, hsame.trans hstatus, hcontent⟩
    · rcases s.listReply_status r cs with ⟨hstatus', -⟩ | ⟨-, hfault⟩
      · exact absurd hstatus' hstatus
      · exact .inr ⟨hash, cs, htakes, hparse, hfault⟩
    · rintro hash' cs' htakes' hcs' ⟨c, hc, hfault⟩
      obtain rfl := hunique hash' cs' htakes' hcs'
      rcases s.listReply_status r cs with ⟨-, hnone⟩ | ⟨hstatus, -⟩
      · exact absurd (hnone c hc) hfault
      · exact ⟨hstatus, rfl⟩
  · have hdeclined : ∀ hash, ¬ s.Takes r app hash := fun hash h => htakes ⟨hash, h⟩
    obtain ⟨reply, trace, hwork, hstatus⟩ := s.load_declined isOpen reach hr hdeclined
    refine ⟨reply, s.checked r app, trace, hwork, rfl, fun h => absurd h hstatus, fun _ => .inl rfl,
      fun hash _ h => absurd h (hdeclined hash)⟩

/-- The application with one pending command. -/
def pendingApp : App Unit := { desk := ⟨[⟨"e:run", "a", []⟩], ()⟩ }

/-- A request to load a fragment with a surrogate among the arguments of its only command. -/
def surrogateLoad : Request :=
  { surrogateRequest with
    method := "PUT"
    path := "/api/v1/hash-commands/pending" }

/-- The answer is an internal error, and the command that was pending is lost. -/
theorem load_surrogate : idleService.framework.Lawful
    ∧ Address.ofRequest surrogateLoad = .endpoint .load
    ∧ ∀ isOpen reach, ∃ reply app' trace,
      (idleService.respond surrogateLoad).resume isOpen reach pendingApp
        = ⟨.done (.ok reply), app', trace, false⟩
      ∧ reply.response.status = 500 ∧ app'.desk.pending ≠ pendingApp.desk.pending := by
  have hframework : idleService.framework.Lawful := Framework.standard_lawful ⟨[]⟩
  have hr : Address.ofRequest surrogateLoad = .endpoint .load := by decide
  have htakes : idleService.Takes surrogateLoad pendingApp surrogateHash := ⟨rfl, by decide +kernel⟩
  obtain ⟨cs, hcs, c, hc, hnone⟩ := surrogate_has_fault
  refine ⟨hframework, hr, fun isOpen reach => ?_⟩
  obtain ⟨reply, app', trace, hwork, hloads⟩ :=
    load_answered idle.table idleService.framework hframework [] pendingApp hr isOpen reach
  obtain ⟨hstatus, hpending⟩ := hloads.lost surrogateHash cs htakes hcs ⟨c, hc, hnone⟩
  refine ⟨reply, app', trace, hwork, hstatus, fun hsame => ?_⟩
  -- the command that was pending could be sent
  rw [← hpending, hsame] at hc
  obtain rfl := List.mem_singleton.mp hc
  exact hnone rfl

end Service

end Http

end Deeplink

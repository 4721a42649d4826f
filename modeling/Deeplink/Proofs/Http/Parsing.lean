import Deeplink.Proofs.Command.Carried
import Deeplink.Proofs.Fragment.Commands
import Deeplink.Proofs.Http.Exclusive

/-!
# Fragments that are only parsed

This is the endpoint that only parses (specification, 6).

- `Http.Service.listReply`: the reply with a list of commands, or with the failure to send them.
- `Http.Service.answering_sent_work`: an endpoint that sends commands gives this reply at once.
- `Http.Service.parse_work`: so does the endpoint that parses a fragment, and it changes nothing.
- `Http.Service.parse_answered`: it gives the commands as they are if they can be carried, and only
  then.
-/

namespace Deeplink.Http

variable {ρ : Type}

namespace Service

/-! ## Lists of commands -/

/-- The reply to a failure that nothing else takes care of. -/
def internalReply (e : Failure) : Reply :=
  ⟨Response.ofData 500 (CommandError.envelopeOf "INTERNAL_ERROR" "An unexpected error occurred"
    .internal .critical []), some e.className⟩

/-- The reply with a list of commands, or with the failure to send them. -/
def listReply (s : Service ρ) (r : Request) (cs : List Command) : Reply :=
  match Command.sentList s.framework.carrier cs with
  | .ok v => ⟨s.framework.share r (Response.ofData 200 v), none⟩
  | .error fault => internalReply (Failure.of (.unserializable fault))

/-- Commands are sent in one go, and nothing but the log notices a failure. -/
theorem answering_sent_work (s : Service ρ) (r : Request) (cs : List Command)
    (isOpen : Text → Bool) (reach : Task.Reach) (app : App ρ) :
    ∃ trace, ((answering (s.sent cs)).attempt.bind (s.conclude r)).work isOpen reach app
      = ⟨.done (.ok (s.listReply r cs)), app, trace, false⟩ := by
  unfold sent listReply
  cases Command.sentList s.framework.carrier cs with
  | ok v => exact ⟨_, rfl⟩
  | error fault => exact ⟨_, rfl⟩

theorem listReply_status (s : Service ρ) (r : Request) (cs : List Command) :
    (s.listReply r cs).response.status = 200
        ∧ (∀ c ∈ cs, c.sendFault? s.framework.carrier = none)
      ∨ (s.listReply r cs).response.status = 500
        ∧ ∃ c ∈ cs, c.sendFault? s.framework.carrier ≠ none := by
  unfold listReply Command.sentList
  cases hfault : cs.findSome? (Command.sendFault? s.framework.carrier) with
  | none => exact .inl ⟨rfl, List.findSome?_eq_none_iff.mp hfault⟩
  | some fault =>
    obtain ⟨c, hc, hsome⟩ := List.exists_of_findSome?_eq_some hfault
    refine .inr ⟨rfl, c, hc, ?_⟩
    rw [hsome]
    exact Option.some_ne_none fault

/-- The commands are given as they are if each of them can be carried. -/
theorem listReply_faithful (s : Service ρ) (hcarrier : s.framework.carrier.Lawful) (r : Request)
    {cs : List Command} (h : ∀ c ∈ cs, (c.args.map Prod.fst).Nodup) :
    (s.listReply r cs).response.status = 200
        ∧ (s.listReply r cs).response.content = .data (Command.listToJson cs)
      ↔ ∀ c ∈ cs, c.IsCarried := by
  rw [← Command.sentList_eq_ok_iff hcarrier h]
  unfold listReply
  cases Command.sentList s.framework.carrier cs with
  | error fault =>
    constructor
    · rintro ⟨hstatus, -⟩
      cases hstatus
    · rintro ⟨⟩
  | ok v =>
    constructor
    · exact fun h => congrArg Except.ok (Content.data.inj h.2)
    · exact fun h => ⟨rfl, congrArg Content.data (Except.ok.inj h)⟩

/-! ## Parsing -/

theorem parse_work (s : Service ρ) (hsink : s.dispatcher.sink = none) (r : Request) (hash : Text)
    (isOpen : Text → Bool) (reach : Task.Reach) (app : App ρ) :
    ∃ trace, ((answering (s.parse hash)).attempt.bind (s.conclude r)).work isOpen reach app
      = ⟨.done (.ok (s.listReply r (Fragment.commands s.dispatcher.methods (some hash)))), app,
        trace, false⟩ := by
  -- an act without an end of its own, and then the commands that it has given
  have hact : answering (s.parse hash)
      = (Task.ofAct ((Desk.onHost (s.dispatcher.parse (some hash))).focus App.desk
        fun desk app => { app with desk })).bind fun cs => answering (s.sent cs) := by
    show ((App.onDesk (Task.ofAct _)).bind s.sent).bind _ = _
    rw [App.onDesk, Task.focus_ofAct, Task.bind_assoc]
    rfl
  have hparse : ((Desk.onHost (s.dispatcher.parse (some hash))).focus App.desk
      fun desk app => { app with desk }) app
        = ⟨.ok (Fragment.commands s.dispatcher.methods (some hash)), app,
          (Fragment.diagnostics s.dispatcher.methods (some hash)).map fun d =>
            .notice d.notice⟩ := by
    rw [Act.focus_apply, Desk.onHost, Act.focus_apply, Dispatcher.parse, hsink,
      Fragment.parse_logged]
  obtain ⟨trace, hwork⟩ := s.answering_sent_work r
    (Fragment.commands s.dispatcher.methods (some hash)) isOpen reach app
  rw [hact, Task.attempt_bind_bind, Task.work_ofAct_attempt_bind, hparse]
  exact ⟨_, by rw [Task.caught_ok, hwork]; rfl⟩

/-- **A request to parse a fragment is answered in the turn in which it enters its endpoint**, and
nothing but the settings, which may have to be built, is touched: neither the pending commands nor
the calls of the families. The answer has the commands of the fragment as they are if each of them
can be carried, and only then; if one of them has a fault, it is an internal error. -/
theorem parse_answered (table : Table ρ) (framework : Framework)
    (hframework : framework.Lawful) (now : Text) (app : App (Watched ρ)) {r : Request}
    {hash : Text} (hr : Address.ofRequest r = .endpoint .parse)
    (hhash : ((framework.body r).fragment app.settings).result = .ok (.ok hash))
    (isOpen : Text → Bool) (reach : Task.Reach) :
    let s : Service ρ := ⟨⟨table, none⟩, framework, now⟩
    let p := (s.watched.respond r).resume isOpen reach app
    p.state = { app with settings := ((framework.body r).fragment app.settings).state }
      ∧ ∃ cs reply, (s.dispatcher.parse (some hash) app.desk.host.host).result = .ok cs
        ∧ p.task = .done (.ok reply)
        ∧ (reply.response.status = 200
            ∧ reply.response.content = .data (Command.listToJson cs) ↔ ∀ c ∈ cs, c.IsCarried)
        ∧ (reply.response.status = 200 ∧ (∀ c ∈ cs, c.sendFault? framework.carrier = none)
          ∨ reply.response.status = 500 ∧ ∃ c ∈ cs, c.sendFault? framework.carrier ≠ none) := by
  intro s p
  let entered : App (Watched ρ) :=
    { app with settings := ((framework.body r).fragment app.settings).state }
  have hbody : s.watched.framework.body r = framework.body r := rfl
  obtain ⟨trace, hwork⟩ := s.watched.parse_work rfl r hash isOpen reach entered
  have hp : p = ⟨.done (.ok (s.watched.listReply r
      (Fragment.commands s.watched.dispatcher.methods (some hash)))), entered,
      ((framework.body r).fragment app.settings).trace ++ trace, false⟩ := by
    show (s.watched.respond r).resume isOpen reach app = _
    rw [s.watched.resume_respond hr, entry, onBody_work, hbody, hhash, Task.caught_ok,
      onFragment_ok, hwork]
    rfl
  have hmethods : s.watched.dispatcher.methods = s.dispatcher.methods :=
    s.dispatcher.watched_methods
  rw [hp, hmethods]
  refine ⟨rfl, _, _, ?_, rfl,
    s.watched.listReply_faithful hframework.carrier r (Fragment.commands_nodup _ _),
    s.watched.listReply_status r _⟩
  exact congrArg Outcome.result (Fragment.parse_logged _ _ _)

/-- A dispatcher with one family, whose commands do nothing. -/
def idle : Dispatcher Unit :=
  ⟨[("e:run", ⟨fun _ _ => pure .null, fun _ => pure true⟩)], none⟩

/-- The application at its start. -/
def idleApp : App (Watched Unit) := { desk := ⟨[], ⟨(), []⟩⟩ }

/-- A fragment with a surrogate among the arguments of its only command. -/
def surrogateHash : Text := "e:run:x?\x7b\"a\":\"\\ud800\"\x7d"

def surrogateRequest : Request :=
  { method := "POST"
    path := "/api/v1/hash-commands/parse"
    query := []
    headers := [("content-type", "application/json")]
    body := "\x7b\"hash\":\"e:run:x?\x7b\\\"a\\\":\\\"\\\\ud800\\\"\x7d\"\x7d".toUTF8.toList }

/-- The service with this dispatcher, whose responses no other origin may read. -/
def idleService : Service Unit := ⟨idle, .standard ⟨[]⟩, []⟩

/-- Its command cannot be sent. -/
theorem surrogate_has_fault : ∃ cs, (idle.parse (some surrogateHash) ()).result = .ok cs
    ∧ ∃ c ∈ cs, c.sendFault? idleService.framework.carrier ≠ none := by
  have hparse : ∃ cs, (idle.parse (some surrogateHash) ()).result = .ok cs :=
    ⟨_, congrArg Outcome.result (Fragment.parse_logged idle.methods _ ())⟩
  obtain ⟨cs, hcs⟩ := hparse
  have hfault : (idle.parse (some surrogateHash) ()).result.toOption.any
      (fun cs => cs.any fun c => (c.sendFault? idleService.framework.carrier).isSome) = true := by
    decide +kernel
  rw [hcs] at hfault
  obtain ⟨c, hc, hsome⟩ := List.any_eq_true.mp hfault
  exact ⟨cs, hcs, c, hc, Option.isSome_iff_ne_none.mp hsome⟩

/-- The command cannot be carried, and the answer is an internal error. -/
theorem parse_surrogate : idleService.framework.Lawful
    ∧ Address.ofRequest surrogateRequest = .endpoint .parse
    ∧ ((idleService.framework.body surrogateRequest).fragment idleApp.settings).result
      = .ok (.ok surrogateHash)
    ∧ ∀ isOpen reach, ∃ reply,
      ((idleService.watched.respond surrogateRequest).resume isOpen reach idleApp).task
        = .done (.ok reply) ∧ reply.response.status = 500 := by
  have hframework : idleService.framework.Lawful := Framework.standard_lawful ⟨[]⟩
  have hr : Address.ofRequest surrogateRequest = .endpoint .parse := by decide
  have hhash : ((idleService.framework.body surrogateRequest).fragment idleApp.settings).result
      = .ok (.ok surrogateHash) := by decide +kernel
  refine ⟨hframework, hr, hhash, fun isOpen reach => ?_⟩
  obtain ⟨-, cs, reply, hcs, htask, -, hstatus⟩ :=
    parse_answered idle.table idleService.framework hframework [] idleApp hr hhash isOpen reach
  obtain ⟨cs', hcs', c, hc, hfault⟩ := surrogate_has_fault
  obtain rfl := Except.ok.inj (hcs'.symm.trans hcs)
  refine ⟨reply, htask, ?_⟩
  rcases hstatus with ⟨-, hnone⟩ | ⟨hstatus, -⟩
  · exact absurd (hnone c hc) hfault
  · exact hstatus

end Service

end Deeplink.Http

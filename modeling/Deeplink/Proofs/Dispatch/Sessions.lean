import Deeplink.Proofs.Dispatch.History
import Deeplink.Proofs.Dispatch.Known

/-!
# Sessions with a dispatcher

A dispatcher is made of a mapping and keeps a table of its own. Whoever has made it may change the
mapping, and operations may overlap in any way. All that ever waits to be run has been read by the
dispatcher, so that its methods stay known. The mapping that a dispatcher is made of is copied
(specification, 4.2).

- `Desk.Assigns`, `Dispatcher.AssignsOnly`: what is pending changes by operations of the dispatcher
  only.
- `Dispatcher.Session`: a dispatcher, the mapping that it has been made of, and the operations that
  are under way.
- `Dispatcher.Session.Reachable.invariant`: in every state that a session reaches, all that is
  pending is known.
- `Dispatcher.methods_stay_known`: what follows for the validation and for the runs of it.
-/

namespace Deeplink

/-! ## What is assigned -/

/-- What is pending is as before, or what an operation of a dispatcher leaves. -/
def Desk.Assigns {ρ : Type} (methods : List Text) (desk desk' : Desk ρ) : Prop :=
  desk'.pending = desk.pending ∨ ∃ mark : Pending.Mark, desk'.pending = mark.commands methods

namespace Desk

variable {ρ : Type} {methods : List Text}

theorem Assigns.isPreorder : IsPreorder (Assigns (ρ := ρ) methods) where
  refl desk := .inl rfl
  trans := by
    rintro desk desk' desk'' h (hsame | hmark)
    · rcases h with hsame' | ⟨mark, hmark⟩
      · exact .inl (hsame.trans hsame')
      · exact .inr ⟨mark, hsame.trans hmark⟩
    · exact .inr hmark

/-- To leave what is pending as it is assigns nothing. -/
theorem SamePending.assigns {desk desk' : Desk ρ} (h : SamePending desk desk') :
    Assigns methods desk desk' := .inl h

/-- What the host does assigns nothing. -/
theorem onHost_assigns {α : Type} (x : Act ρ α) : (onHost x).Keeps (Assigns methods) :=
  fun desk => (onHost_keeps_pending x desk).assigns

end Desk

namespace Dispatcher

open Desk (Assigns)

variable {ρ : Type} {d : Dispatcher ρ}

/-- The runners of a dispatcher change what is pending by its operations only: they may load, and
run what is pending, as often as they like. -/
def AssignsOnly (d : Dispatcher ρ) : Prop :=
  ∀ method family, d.table.lookup method = some family →
    ∀ name args, (family.run name args).Keeps (Assigns d.methods)

/-- Families that leave alone what is pending assign nothing. -/
theorem LeavesPending.assignsOnly (h : d.LeavesPending) : d.AssignsOnly :=
  fun method family hfamily name args =>
    (h method family hfamily name args).mono fun _ _ hsame => hsame.assigns

/-- What is assigned has known methods, because it has been parsed with these methods. -/
theorem Known.assigned {desk desk' : Desk ρ} (h : d.Known desk.pending)
    (hdesk : Assigns d.methods desk desk') : d.Known desk'.pending := by
  rcases hdesk with hsame | ⟨mark, hmark⟩
  · rwa [hsame]
  · rw [hmark]
    exact d.known_of_mark mark

/-- A run assigns what its families assign, and nothing else. -/
theorem run_assigns (hd : d.AssignsOnly) (cs : List Command) :
    (d.run cs).Keeps (Assigns d.methods) :=
  run_keeps (fun _ => Desk.onHost_assigns _) (runner_keeps hd) cs

/-- A run of what is pending clears nothing by itself, so it assigns what its families assign. -/
theorem runPending_assigns (hd : d.AssignsOnly) : d.runPending.Keeps (Assigns d.methods) :=
  .bind (.get Assigns.isPreorder.refl) fun desk => run_assigns hd desk.pending

/-- A fragment that is loaded is parsed with the methods of the dispatcher. -/
theorem load_assigns (d : Dispatcher ρ) (raw : Option Text) :
    (d.load raw).Keeps (Assigns d.methods) := by
  intro desk
  cases hparse : (d.parse raw desk.host).result with
  | ok cs =>
    obtain ⟨trace, hload⟩ := load_of_ok hparse
    rw [hload]
    exact .inr ⟨.loaded raw, Fragment.eq_commands_of_parse hparse⟩
  | error e =>
    obtain ⟨trace, hload⟩ := load_of_error hparse
    rw [hload]
    exact .inl rfl

/-- **Every operation leaves what was pending, what it has loaded, or nothing**, at every change
that it makes. -/
theorem Operation.task_assigns (hd : d.AssignsOnly) (operation : Operation) :
    (operation.task d).Keeps (Assigns d.methods) := by
  cases operation with
  | load raw => exact .bind (.ofAct (d.load_assigns raw)) fun _ => trivial
  | parse raw => exact .bind (.ofAct (Desk.onHost_assigns _)) fun _ => trivial
  | validate cs => exact .bind (.ofAct (Desk.onHost_assigns _)) fun _ => trivial
  | run cs => exact .bind (run_assigns hd cs) fun _ => trivial
  | runPending => exact .bind (runPending_assigns hd) fun _ => trivial
  | runOnce =>
    have hclear (count : Nat) : (clearing (ρ := ρ) count).Keeps (Assigns d.methods) :=
      fun desk => ⟨.inr ⟨.cleared, rfl⟩, trivial⟩
    exact .bind (.bind (runPending_assigns hd) hclear) fun _ => trivial

/-! ## Sessions -/

/-- A dispatcher, the mapping of its maker, its desk, and the operations that have begun, in the
order in which they have begun. -/
structure Session (ρ : Type) where
  mapping : Table ρ
  dispatcher : Dispatcher ρ
  desk : Desk ρ
  underWay : List (Task (Desk ρ) Unit) := []

/-- What happens next: the maker puts anything into the mapping, an operation begins, or the one at
a position goes on. Which gates are open then, and how far it goes, is left open. -/
inductive Move (ρ : Type) where
  | mutate (mapping : Table ρ)
  | start (operation : Operation)
  | goOn (i : Nat) (isOpen : Text → Bool) (reach : Task.Reach)

namespace Session

/-- A dispatcher that has been made of a mapping. It has a copy of it. -/
def make (mapping : Table ρ) (sink : Option (Sink ρ)) (desk : Desk ρ) : Session ρ :=
  { mapping, dispatcher := ⟨mapping, sink⟩, desk }

/-- One move. An operation that begins does nothing yet. -/
def step (session : Session ρ) : Move ρ → Session ρ
  | .mutate mapping => { session with mapping }
  | .start operation =>
    { session with underWay := session.underWay ++ [operation.task session.dispatcher] }
  | .goOn i isOpen reach =>
    match session.underWay[i]? with
    | none => session
    | some t =>
      { session with
        desk := (t.resume isOpen reach session.desk).state
        underWay := session.underWay.set i (t.resume isOpen reach session.desk).task }

/-- The sessions that come of making a dispatcher of a mapping and of a fragment. Other code may
change anything on the desk in between, but what is pending by operations of the dispatcher only. -/
inductive Reachable (d : Dispatcher ρ) : Session ρ → Prop where
  | made {raw : Option Text} {host host' : ρ} {cs : List Command} {trace : List Signal}
      (h : d.parse raw host = ⟨.ok cs, host', trace⟩) :
      Reachable d (make d.table d.sink ⟨cs, host'⟩)
  | step {session : Session ρ} (h : Reachable d session) (m : Move ρ) : Reachable d (session.step m)
  | aside {session : Session ρ} (h : Reachable d session) {desk : Desk ρ}
      (hdesk : Assigns d.methods session.desk desk) : Reachable d { session with desk }

theorem Reachable.moves {session : Session ρ} (h : Reachable d session) (ms : List (Move ρ)) :
    Reachable d (ms.foldl Session.step session) := by
  induction ms generalizing session with
  | nil => exact h
  | cons m ms ih => exact ih (h.step m)

/-- The dispatcher is the one that has been made, all that is pending is known to it, and what is
left of its operations changes what is pending as operations do. -/
structure Invariant (d : Dispatcher ρ) (session : Session ρ) : Prop where
  own : session.dispatcher = d
  known : d.Known session.desk.pending
  assigns : ∀ t ∈ session.underWay, t.Keeps (Assigns d.methods)

/-- **One move**: a task that is suspended goes on, or a new one begins. The mapping may be changed
at any time. -/
theorem Invariant.step (hd : d.AssignsOnly) {session : Session ρ} (h : Invariant d session)
    (m : Move ρ) : Invariant d (session.step m) := by
  cases m with
  | mutate mapping => exact { own := h.own, known := h.known, assigns := h.assigns }
  | start operation =>
    refine { own := h.own, known := h.known, assigns := ?_ }
    intro t ht
    rcases List.mem_append.mp ht with ht | ht
    · exact h.assigns t ht
    · obtain rfl := List.mem_singleton.mp ht
      rw [h.own]
      exact Operation.task_assigns hd operation
  | goOn i isOpen reach =>
    simp only [Session.step]
    cases hi : session.underWay[i]? with
    | none => exact h
    | some t =>
      -- its turn changes what is pending as operations do, and so will what is left of it
      obtain ⟨hdesk, hleft⟩ := (h.assigns t (List.mem_of_getElem? hi)).resume Assigns.isPreorder
        isOpen reach session.desk
      refine { own := h.own, known := h.known.assigned hdesk, assigns := ?_ }
      intro t' ht'
      rcases List.mem_or_eq_of_mem_set ht' with ht' | rfl
      · exact h.assigns t' ht'
      · exact hleft

/-- The invariant holds after any moves. -/
theorem Reachable.invariant (hd : d.AssignsOnly) {session : Session ρ} (h : Reachable d session) :
    Invariant d session := by
  induction h with
  | made h =>
    have hcs := congrArg Outcome.result h
    exact { own := rfl, known := known_of_parse hcs, assigns := nofun }
  | step _ m ih => exact ih.step hd m
  | aside _ hdesk ih =>
    exact { own := ih.own, known := ih.known.assigned hdesk, assigns := ih.assigns }

end Session

/-! ## What a session reaches -/

/-- What holds in a state of a session. A sequence that is known may have been pending or been read
at any time; it may be given to the dispatcher at any other time, while others do anything. -/
structure OnlyKnown (d : Dispatcher ρ) (session : Session ρ) : Prop where
  /-- The table is that of the mapping when the dispatcher was made. -/
  own : session.dispatcher = d
  /-- All that is pending is known, -/
  pending : session.dispatcher.Known session.desk.pending
  /-- and so is all that is read from a fragment. -/
  parsed : ∀ raw host cs, (session.dispatcher.parse raw host).result = .ok cs →
    session.dispatcher.Known cs
  /-- There is a family for each command of a known sequence. -/
  found : ∀ cs, session.dispatcher.Known cs → ∀ c ∈ cs, ∃ family, session.dispatcher.Found c family
  /-- The validation of one fails exactly if it is declined. -/
  validated : ∀ cs, session.dispatcher.Known cs → ∀ host e,
    ((session.dispatcher.validate cs host).result = .error e
      ↔ session.dispatcher.Declined cs host e)
  /-- A run of one is rejected only if it is declined or the text of what a runner has raised cannot
  be made, whether the sequence is given, -/
  ran : ∀ cs, session.dispatcher.Known cs → ∀ others desk e desk',
    Task.Ends others (session.dispatcher.run cs) desk (.error e) desk' → e.IsRejection →
    session.dispatcher.Declined cs desk.host e ∨ session.dispatcher.Untold others cs e
  /-- pending, -/
  ranPending : ∀ others e desk',
    Task.Ends others session.dispatcher.runPending session.desk (.error e) desk'
      ∨ Task.Ends others session.dispatcher.runOnce session.desk (.error e) desk' → e.IsRejection →
    session.dispatcher.Declined session.desk.pending session.desk.host e
      ∨ session.dispatcher.Untold others session.desk.pending e
  /-- or read from a fragment. -/
  ranFragment : ∀ others raw desk e desk',
    Task.Ends others (session.dispatcher.runFragment raw) desk (.error e) desk' → e.IsRejection →
    ∃ cs host trace, session.dispatcher.parse raw desk.host = ⟨.ok cs, host, trace⟩
      ∧ (session.dispatcher.Declined cs host e ∨ session.dispatcher.Untold others cs e)
  /-- Unless a safety check raises a rejection itself, each one is the answer of a safety check. -/
  answered : session.dispatcher.ChecksPlainly → ∀ cs host e,
    session.dispatcher.Declined cs host e → e.IsRejection → session.dispatcher.Answered cs host e

/-- **Nothing that a dispatcher has read is refused for want of a family**, in any state that a
session reaches. Its families are found, and it is declined only by a safety check: one that answers
that a command may not run, or one that fails. -/
theorem methods_stay_known (d : Dispatcher ρ) (hd : d.AssignsOnly) {session : Session ρ}
    (h : Session.Reachable d session) : OnlyKnown d session := by
  obtain ⟨rfl, hpending, -⟩ := h.invariant hd
  exact {
    own := rfl
    pending := hpending
    parsed := fun _ _ _ hparse => known_of_parse hparse
    found := fun _ hknown c hc => found_of_mem_methods (hknown c hc)
    validated := fun _ hknown _ _ => validate_error_iff hknown
    ran := fun _ hknown _ _ _ _ hends he => declined_of_run hknown hends he
    ranPending := by
      rintro others e desk' (hends | hends) he
      · exact declined_of_runPending hpending hends he
      · exact declined_of_runOnce hpending hends he
    ranFragment := fun _ _ _ _ _ hends he => declined_of_runFragment hends he
    answered := fun hplain _ _ _ h he => h.answered hplain he }

/-- A dispatcher with one family. Its commands are safe as long as the host says so; each of them
loads `b`, and then no more are safe. -/
def reloading : Dispatcher Bool :=
  { table := [("e:run", {
      run := fun _ _ => .act
        (fun _ => ⟨Fragment.commands ["e:run"] (some "#e:run:b"), false⟩)
        fun _ => .done (.ok .null)
      isSafe := fun _ => Act.get })]
    sink := none }

theorem reloading_assignsOnly : reloading.AssignsOnly := by
  intro method family hfamily name args
  rw [reloading, List.lookup_cons] at hfamily
  split at hfamily
  · obtain rfl := Option.some.inj hfamily
    exact fun desk => ⟨.inr ⟨.loaded (some "#e:run:b"), rfl⟩, trivial⟩
  · cases hfamily

/-- The mapping is emptied, and then what is pending runs: `a`, which loads `b`. -/
def reloadingMoves : List (Move Bool) :=
  [.mutate [], .start .runPending, .goOn 0 (fun _ => true) .far]

/-- The family of this dispatcher loads a fragment while it runs, and the mapping is emptied; what
is pending stays known, and it is refused for another reason. -/
theorem reloaded_stays_known : reloading.AssignsOnly ∧ ∃ session : Session Bool,
    Session.Reachable reloading session ∧ session.mapping = []
      ∧ session.desk.pending = [⟨"e:run", "b", []⟩] ∧ OnlyKnown reloading session
      ∧ session.dispatcher.Declined session.desk.pending session.desk.host
        (rejection ⟨"e:run", "b", []⟩ 0 (.notSafe "b")) := by
  have hmade : reloading.parse (some "#e:run:a") true = ⟨.ok [⟨"e:run", "a", []⟩], true, _⟩ :=
    Fragment.parse_logged reloading.methods _ true
  have hreach := (Session.Reachable.made hmade).moves reloadingMoves
  have hknown := methods_stay_known reloading reloading_assignsOnly hreach
  have hpending : (reloadingMoves.foldl Session.step
      (.make reloading.table reloading.sink ⟨[⟨"e:run", "a", []⟩], true⟩)).desk
        = ⟨[⟨"e:run", "b", []⟩], false⟩ := by rfl
  refine ⟨reloading_assignsOnly, _, hreach, by rfl, by rw [hpending], hknown, ?_⟩
  refine (hknown.validated _ hknown.pending _ _).mp ?_
  rw [hpending, hknown.own]
  rfl

/-- A dispatcher with one family, whose safety check raises rejections itself. -/
def touchy : Dispatcher Unit :=
  { table := [("e:run", {
      run := fun _ _ => pure .null
      isSafe := fun _ => Act.fail (Failure.ofCommand (.rejected (.other "closed")) {}) })]
    sink := none }

/-- A dispatcher with one family. Its commands are safe, but making the text of what its runners
raise raises a rejection. -/
def mumbling : Dispatcher Unit :=
  { table := [("e:run", {
      run := fun _ _ => Task.fail
        (Failure.of (.textless .value (Failure.ofCommand (.rejected (.other "closed")) {})))
      isSafe := fun _ => pure true })]
    sink := none }

/-- Such rejections are passed on, although no safety check has answered that a command may not
run. -/
theorem rejected_without_answer :
    (touchy.AssignsOnly ∧ ∃ session : Session Unit,
      Session.Reachable touchy session ∧ session.desk.pending = [⟨"e:run", "x", []⟩]
        ∧ ∃ e, (touchy.validate session.desk.pending session.desk.host).result = .error e
          ∧ e.IsRejection
          ∧ ∀ method family, touchy.table.lookup method = some family →
            ∀ name host, (family.isSafe name host).result ≠ .ok false)
    ∧ mumbling.AssignsOnly ∧ ∃ session : Session Unit,
      Session.Reachable mumbling session ∧ session.desk.pending = [⟨"e:run", "x", []⟩]
        ∧ ∃ e, Task.Ends Eq mumbling.runOnce session.desk (.error e) session.desk
          ∧ e.IsRejection
          ∧ ∀ method family, mumbling.table.lookup method = some family →
            ∀ name host, (family.isSafe name host).result = .ok true := by
  constructor
  · have hleaves : touchy.LeavesPending := .single fun name args => trivial
    have hmade : touchy.parse (some "#e:run:x") ()
        = ⟨.ok (Fragment.commands touchy.methods (some "#e:run:x")), (), _⟩ :=
      Fragment.parse_logged touchy.methods _ ()
    refine ⟨hleaves.assignsOnly, _, .made hmade, by rfl, _, by rfl, ⟨_, _, rfl⟩, ?_⟩
    intro method family hfamily name host
    rw [touchy, List.lookup_cons] at hfamily
    split at hfamily
    · obtain rfl := Option.some.inj hfamily
      exact nofun
    · cases hfamily
  · have hleaves : mumbling.LeavesPending := .single fun name args => trivial
    have hmade : mumbling.parse (some "#e:run:x") ()
        = ⟨.ok (Fragment.commands mumbling.methods (some "#e:run:x")), (), _⟩ :=
      Fragment.parse_logged mumbling.methods _ ()
    have hcommands : Fragment.commands mumbling.methods (some "#e:run:x") = [⟨"e:run", "x", []⟩] :=
      by rfl
    rw [hcommands] at hmade
    -- the run reads what is pending and checks it, and then the runner fails
    have hends : Task.Ends Eq mumbling.runOnce ⟨[⟨"e:run", "x", []⟩], ()⟩
        (.error (Failure.ofCommand (.rejected (.other "closed")) {}))
        ⟨[⟨"e:run", "x", []⟩], ()⟩ := .act (.act (.done _ _))
    refine ⟨hleaves.assignsOnly, _, .made hmade, rfl, _, hends, ⟨_, _, rfl⟩, ?_⟩
    intro method family hfamily name host
    rw [mumbling, List.lookup_cons] at hfamily
    split at hfamily
    · obtain rfl := Option.some.inj hfamily
      rfl
    · cases hfamily

end Dispatcher

end Deeplink

import Deeplink.Proofs.Http.Turns
import Mathlib.Data.List.Induction

/-!
# No lost updates

A run of what is pending reads the commands when it begins, and it clears what is pending when it
has succeeded. In between it may be suspended for as long as it likes, while other requests come and
go. The pending sequence has one writer at a time (specification, 5).

- `Http.Site.run`, `Http.Site.marks`: what becomes of a site, move after move, and what the moves
  have decided.
- `Http.Site.Begins`, `Http.Site.Ran`: where among the moves a dispatch has begun, and what a run of
  what is pending has done.
- `Http.Site.Followed`: what holds after every list of moves.
- `Http.Site.no_lost_update`: nothing that is pending is cleared without having been run.
-/

namespace Deeplink.Http.Site

variable {ρ : Type}

open Service (clears)

/-! ## Moves in a row -/

/-- The site after moves. -/
def run (s : Service ρ) (site : Site ρ) (moves : List Move) : Site ρ := moves.foldl (step s) site

theorem run_concat (s : Service ρ) (site : Site ρ) (moves : List Move) (m : Move) :
    site.run s (moves ++ [m]) = (site.run s moves).step s m := by
  rw [run, List.foldl_append]
  rfl

theorem Reachable.run {s : Service ρ} {site : Site ρ} (h : Reachable s site) (moves : List Move) :
    Reachable s (site.run s moves) := by
  induction moves using List.reverseRecOn with
  | nil => exact h
  | append_singleton moves m ih =>
    rw [run_concat]
    exact ih.step m

/-- What moves have decided about what is pending, one after the other. -/
def marks (s : Service ρ) (site : Site ρ) : List Move → List Pending.Mark
  | [] => []
  | m :: moves => (site.mark? s m).toList ++ (site.step s m).marks s moves

theorem marks_concat (s : Service ρ) (site : Site ρ) (moves : List Move) (m : Move) :
    site.marks s (moves ++ [m]) = site.marks s moves ++ ((site.run s moves).mark? s m).toList := by
  induction moves generalizing site with
  | nil => exact List.append_nil _
  | cons m' moves ih =>
    show (site.mark? s m').toList ++ (site.step s m').marks s (moves ++ [m]) = _
    rw [ih, ← List.append_assoc]
    rfl

/-- A site around a host: no request has arrived, and nothing is pending. -/
def opening (host : ρ) (settings : Settings.Store) (root : Log.Root) : Site ρ :=
  { app := { desk := ⟨[], ⟨host, []⟩⟩, settings, root } }

theorem opening_reachable (s : Service ρ) (host : ρ) (settings : Settings.Store)
    (root : Log.Root) : Reachable s (opening host settings root) :=
  .start _ rfl rfl

/-! ## Where a dispatch begins and ends -/

section Runs

variable (s : Service ρ) (first : Site ρ)

/-- The request at a position has entered its endpoint, and it did so behind the moves `before`. -/
structure Begins (moves : List Move) (i : Nat) (before : List Move) : Prop where
  entered : ∃ isOpen reach, before ++ [.goOn i isOpen reach] <+: moves
  fresh : ∃ x, (first.run s before).exchanges[i]? = some x ∧ x.hasEntered = false

/-- The request at a position has run the `n` commands that were pending behind the moves `before`,
when it entered its endpoint, and that were still pending behind the moves `ended`, when it cleared
what was pending. -/
structure Ran (moves : List Move) (i n : Nat) (before ended : List Move) : Prop where
  begins : ∃ isOpen reach, ended ++ [.goOn i isOpen reach] <+: moves
    ∧ Begins s first (ended ++ [.goOn i isOpen reach]) i before
    ∧ (first.run s ended).mark? s (.goOn i isOpen reach) = some .cleared
  same : (first.run s before).app.desk.pending = (first.run s ended).app.desk.pending
  count : n = (first.run s ended).app.desk.pending.length
  calls : callsOf (first.run s moves).log i
    = (Dispatcher.executed (first.run s ended).app.desk.pending).map (i, ·)

end Runs

variable {s : Service ρ} {first : Site ρ} {moves : List Move} {i n : Nat}
  {before ended : List Move}

theorem Begins.concat (h : Begins s first moves i before) (m : Move) :
    Begins s first (moves ++ [m]) i before := by
  obtain ⟨⟨isOpen, reach, hprefix⟩, hfresh⟩ := h
  exact ⟨⟨isOpen, reach, hprefix.trans (List.prefix_append moves [m])⟩, hfresh⟩

/-- What a run has done is not changed by moves that make no calls in its name. -/
theorem Ran.concat (h : Ran s first moves i n before ended) {m : Move}
    (hlog : callsOf (first.run s (moves ++ [m])).log i = callsOf (first.run s moves).log i) :
    Ran s first (moves ++ [m]) i n before ended := by
  obtain ⟨⟨isOpen, reach, hprefix, hbegins, hmark⟩, hsame, hcount, hcalls⟩ := h
  refine ⟨⟨isOpen, reach, ?_, hbegins, hmark⟩, hsame, hcount, hlog.trans hcalls⟩
  exact hprefix.trans (List.prefix_append moves [m])

/-! ## What holds after every move -/

/-- What holds after moves: the last mark says what is pending, every dispatch that is suspended has
begun at some time before, and every run that is reported as a success is one. -/
structure Followed (s : Service ρ) (first : Site ρ) (moves : List Move) : Prop where
  last : (first.run s moves).app.desk.pending
    = Pending.after s.dispatcher.methods (first.marks s moves)
  underway : ∀ i, (first.run s moves).Dispatching s i → ∃ before, Begins s first moves i before
    ∧ Underway s (first.run s before) (first.run s moves) i
  ran : ∀ i x n, (first.run s moves).exchanges[i]? = some x → clears x.request = true →
    executed? x.task = some n → ∃ before ended, Ran s first moves i n before ended

theorem Followed.start (host : ρ) (settings : Settings.Store) (root : Log.Root) :
    Followed s (opening host settings root) [] where
  last := rfl
  underway := by
    rintro i ⟨x, hx, -⟩
    exact nomatch hx
  ran := by
    intro i x n hx
    exact nomatch hx

/-- What is pending, if a move changes it just as it decides. -/
theorem last_concat {m : Move} (h : (first.run s moves).app.desk.pending
      = Pending.after s.dispatcher.methods (first.marks s moves))
    (hm : ((first.run s moves).step s m).app.desk.pending
      = ((first.run s moves).mark? s m).elim (first.run s moves).app.desk.pending
        (Pending.Mark.commands s.dispatcher.methods)) :
    (first.run s (moves ++ [m])).app.desk.pending
      = Pending.after s.dispatcher.methods (first.marks s (moves ++ [m])) := by
  rw [run_concat, hm, marks_concat]
  cases (first.run s moves).mark? s m with
  | none =>
    rw [Option.toList_none, List.append_nil, ← h]
    rfl
  | some mark => exact (Pending.after_concat s.dispatcher.methods _ mark).symm

/-- A request that arrives is nothing to the others, and it has not been answered if it asks for a
run. -/
theorem Followed.arrive (h : Followed s first moves) (r : Request) :
    Followed s first (moves ++ [.arrive r]) := by
  refine ⟨last_concat h.last rfl, ?_, ?_⟩
  · rw [run_concat]
    rintro j ⟨x, hx, hentered, hflight⟩
    rcases old_or_new hx with hold | rfl
    · obtain ⟨before, hbegins, hunderway⟩ := h.underway j ⟨x, hold, hentered, hflight⟩
      exact ⟨before, hbegins.concat _, hunderway.congr (hx.trans hold.symm) rfl rfl⟩
    · cases hentered
  · intro j x n hx hclears hn
    rw [run_concat] at hx
    rcases old_or_new hx with hold | rfl
    · obtain ⟨before, ended, hran⟩ := h.ran j x n hold hclears hn
      exact ⟨before, ended, hran.concat (by rw [run_concat]; rfl)⟩
    · have hdone := s.watched.respond_isDone (of_decide_eq_true hclears)
      rw [executed?_eq_none hdone] at hn
      cases hn

section GoOn

variable (hs : s.dispatcher.LeavesPending) (hsink : s.dispatcher.sink = none)
  (hfirst : Reachable s first)

include hs hsink hfirst

/-- The request at a position takes its turn. If that is a turn of its dispatch, it is known where
the dispatch has begun. -/
theorem Followed.exists_turn (h : Followed s first moves) {x : Exchange ρ}
    (hx : (first.run s moves).exchanges[i]? = some x) (isOpen : Text → Bool) (reach : Task.Reach) :
    ∃ before, Turn s (first.run s before) (first.run s moves) i x
        (x.task.resume isOpen reach (first.run s moves).app)
        ((first.run s moves).mark? s (.goOn i isOpen reach))
      ∧ (x.hasEntered = false ∨ (first.run s moves).Dispatching s i →
        Begins s first (moves ++ [.goOn i isOpen reach]) i before) := by
  obtain ⟨order, holder, hinv⟩ := (hfirst.run moves).invariant
  cases hentered : x.hasEntered with
  | false =>
    have hbegins : Begins s first (moves ++ [.goOn i isOpen reach]) i moves :=
      ⟨⟨isOpen, reach, List.prefix_refl _⟩, x, hx, hentered⟩
    exact ⟨moves, turn_of_fresh isOpen reach hs.watched hsink hinv hx hentered, fun _ => hbegins⟩
  | true =>
    by_cases hi : (first.run s moves).Dispatching s i
    · obtain ⟨before, hbegins, hunderway⟩ := h.underway i hi
      exact ⟨before, turn_of_entered isOpen reach hinv hx hentered fun _ => hunderway,
        fun _ => hbegins.concat _⟩
    · refine ⟨moves, turn_of_entered isOpen reach hinv hx hentered fun h => absurd h hi, ?_⟩
      rintro (hfalse | h)
      · cases hfalse
      · exact absurd h hi

/-- What a move clears has been run to its end. -/
theorem Followed.ran_of_cleared (h : Followed s first moves) {x : Exchange ρ}
    (hx : (first.run s moves).exchanges[i]? = some x) {isOpen : Text → Bool} {reach : Task.Reach}
    (hmark : (first.run s moves).mark? s (.goOn i isOpen reach) = some .cleared) :
    ∃ before, Ran s first (moves ++ [.goOn i isOpen reach]) i
        (first.run s moves).app.desk.pending.length before moves
      ∧ executed? (x.task.resume isOpen reach (first.run s moves).app).task
        = some (first.run s moves).app.desk.pending.length := by
  obtain ⟨before, hturn, hbegins⟩ := h.exists_turn hs hsink hfirst hx isOpen reach
  obtain ⟨hlive, hsame, hreport, hcalls⟩ := hturn.cleared hmark
  refine ⟨before, ⟨⟨isOpen, reach, List.prefix_refl _, hbegins hlive, hmark⟩, hsame, rfl, ?_⟩,
    hreport⟩
  rw [run_concat, step_goOn hx]
  exact hcalls

/-- **What holds after moves holds after one more**: a request takes its turn. -/
theorem Followed.goOn (h : Followed s first moves) (i : Nat) (isOpen : Text → Bool)
    (reach : Task.Reach) : Followed s first (moves ++ [.goOn i isOpen reach]) := by
  cases hx : (first.run s moves).exchanges[i]? with
  | none =>
    -- there is no such request
    have hstep : (first.run s moves).step s (.goOn i isOpen reach) = first.run s moves := by
      simp only [step, hx]
    have hmark : (first.run s moves).mark? s (.goOn i isOpen reach) = none := by
      simp only [mark?, hx]
    refine ⟨last_concat h.last (by rw [hstep, hmark]; rfl), ?_, ?_⟩
    · rw [run_concat, hstep]
      intro j hj
      obtain ⟨before, hbegins, hunderway⟩ := h.underway j hj
      exact ⟨before, hbegins.concat _, hunderway⟩
    · intro j y n hy hclears hn
      rw [run_concat, hstep] at hy
      obtain ⟨before, ended, hran⟩ := h.ran j y n hy hclears hn
      exact ⟨before, ended, hran.concat (by rw [run_concat, hstep])⟩
  | some x =>
    obtain ⟨before, hturn, hbegins⟩ := h.exists_turn hs hsink hfirst hx isOpen reach
    have hstep := step_goOn (s := s) hx isOpen reach
    refine ⟨last_concat h.last (by rw [hstep]; exact hturn.pending), ?_, ?_⟩
    · rw [run_concat, hstep]
      intro j hj
      by_cases hji : j = i
      · subst hji
        obtain ⟨hlive, hunderway⟩ := hturn.underway hx hj
        exact ⟨before, hbegins hlive, hunderway⟩
      · obtain ⟨hbefore, hstays⟩ := hturn.underway_of_ne hji hj
        obtain ⟨before', hbegins', hunderway⟩ := h.underway j hbefore
        exact ⟨before', hbegins'.concat _, hstays _ hunderway⟩
    · intro j y n hy hclears hn
      rw [run_concat, hstep] at hy
      by_cases hji : j = i
      · subst hji
        obtain rfl := Option.some.inj ((advance_self hx).symm.trans hy)
        rcases hturn.report hclears hn with ⟨hn', hlog⟩ | hmark
        · obtain ⟨before', ended, hran⟩ := h.ran j x n hx hclears hn'
          exact ⟨before', ended, hran.concat (by rw [run_concat, hstep, hlog])⟩
        · obtain ⟨before', hran, hreport⟩ := h.ran_of_cleared hs hsink hfirst hx hmark
          obtain rfl := Option.some.inj (hreport.symm.trans hn)
          exact ⟨before', moves, hran⟩
      · rw [advance_of_ne (Ne.symm hji)] at hy
        obtain ⟨before', ended, hran⟩ := h.ran j y n hy hclears hn
        refine ⟨before', ended, hran.concat ?_⟩
        rw [run_concat, hstep]
        exact callsOf_append_of_ne _ hji _

end GoOn

/-- **What holds after every list of moves.** -/
theorem followed (hs : s.dispatcher.LeavesPending) (hsink : s.dispatcher.sink = none) (host : ρ)
    (settings : Settings.Store) (root : Log.Root) (moves : List Move) :
    Followed s (opening host settings root) moves := by
  have hfirst := opening_reachable s host settings root
  induction moves using List.reverseRecOn with
  | nil => exact .start host settings root
  | append_singleton moves m ih =>
    cases m with
    | arrive r => exact ih.arrive r
    | goOn i isOpen reach => exact ih.goOn hs hsink hfirst i isOpen reach

/-! ## No lost updates -/

/-- What can be relied on after moves. -/
structure NoLostUpdate (s : Service ρ) (first : Site ρ) (moves : List Move) : Prop where
  /-- What is pending are the commands of the last fragment that has been taken, if no run of what
  was pending has been reported as a success since, and nothing otherwise. -/
  last : (first.run s moves).app.desk.pending
    = Pending.after s.dispatcher.methods (first.marks s moves)
  /-- What is pending is changed by what is decided about it and by nothing else. -/
  unmarked : ∀ m, (first.run s moves).mark? s m = none →
    (first.run s (moves ++ [m])).app.desk.pending = (first.run s moves).app.desk.pending
  /-- Whatever is cleared has been run to its end by the request that clears it, and it has been
  pending when that request entered its endpoint. -/
  cleared : ∀ m, (first.run s moves).mark? s m = some .cleared →
    ∃ i before, Ran s first (moves ++ [m]) i (first.run s moves).app.desk.pending.length before
      moves
  /-- A run of what is pending that is reported as a success has run exactly the commands that were
  pending when it began, in order, and they were still pending when it cleared what was pending. -/
  ran : ∀ i x n, (first.run s moves).exchanges[i]? = some x →
    Address.ofRequest x.request = .endpoint .runPending → executed? x.task = some n →
    ∃ before ended, Ran s first moves i n before ended

/-- **No update is lost**, whatever requests arrive and in whatever order they go on, as long as the
runners leave alone what is pending. -/
theorem no_lost_update (s : Service ρ) (hs : s.dispatcher.LeavesPending)
    (hsink : s.dispatcher.sink = none) (host : ρ) (settings : Settings.Store) (root : Log.Root)
    (moves : List Move) : NoLostUpdate s (opening host settings root) moves := by
  have h := followed hs hsink host settings root moves
  refine ⟨h.last, ?_, ?_, ?_⟩
  · intro m hm
    have hlast := (followed hs hsink host settings root (moves ++ [m])).last
    rw [hlast, h.last, marks_concat, hm, Option.toList_none, List.append_nil]
  · intro m hm
    cases m with
    | arrive r => cases hm
    | goOn i isOpen reach =>
      cases hx : ((opening host settings root).run s moves).exchanges[i]? with
      | none =>
        simp only [mark?, hx] at hm
        cases hm
      | some x =>
        obtain ⟨before, hran, -⟩ := h.ran_of_cleared hs hsink
          (opening_reachable s host settings root) hx hm
        exact ⟨i, before, hran⟩
  · intro i x n hx hr hn
    exact h.ran i x n hx (decide_eq_true hr) hn

/-- A request to load a command. -/
def loadRequest (body : String) : Request :=
  { method := "PUT"
    path := "/api/v1/hash-commands/pending"
    query := []
    headers := [("content-type", "application/json")]
    body := body.toUTF8.toList }

/-- A command is loaded and run; while its runner waits at the gate, another one is to be loaded. -/
def busyMoves : List Move :=
  [.arrive (loadRequest "\x7b\"hash\":\"e:run:a\"\x7d"), .goOn 0 (fun _ => false) .far,
    .arrive runRequest, .goOn 1 (fun _ => false) .far,
    .arrive (loadRequest "\x7b\"hash\":\"e:run:b\"\x7d"), .goOn 2 (fun _ => false) .far,
    .goOn 1 (fun _ => true) .far]

theorem waiting_leavesPending : waiting.dispatcher.LeavesPending := .single fun _ _ => trivial

/-- The run clears the one command that it has run. -/
theorem waiting_run_clears : waiting.dispatcher.LeavesPending ∧ waiting.dispatcher.sink = none
    ∧ ∃ before ended, Ran waiting (opening () {} {}) busyMoves 1 1 before ended := by
  have h := no_lost_update waiting waiting_leavesPending rfl () {} {} busyMoves
  have hreported : ((((opening () {} {}).run waiting busyMoves).exchanges[1]?).bind fun x =>
      executed? x.task) = some 1 := by decide +kernel
  obtain ⟨x, hx, hexecuted⟩ := Option.bind_eq_some_iff.mp hreported
  have hr : (((opening () {} {}).run waiting busyMoves).exchanges[1]?).map
      (fun x => Address.ofRequest x.request) = some (.endpoint .runPending) := by decide +kernel
  rw [hx] at hr
  exact ⟨waiting_leavesPending, rfl, h.ran 1 x 1 hx (Option.some.inj hr) hexecuted⟩

end Deeplink.Http.Site

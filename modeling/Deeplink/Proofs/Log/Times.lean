import Deeplink.Proofs.Log.Line
import Deeplink.Proofs.Moment.Seconds

/-!
# Timestamps of records

The timestamp in the line of a record says when the record was made, to the microsecond, and sorting
timestamps as texts sorts the records by time. The first member of a line is its timestamp
(specification, 10.2).

- `Log.Record.instant?`: the microseconds from the start of 1970 to the creation of a record.
- `Log.Record.instant?_near`: how they are rounded.
- `Log.Record.Stamped`: the line of a record has a timestamp that is read as an instant.
- `Log.Record.timestamps_ordered`: lines have the timestamps of their records, with the order of the
  instants.
-/

namespace Deeplink.Log.Record

/-! ## Requested attributes -/

section Fields

variable {fields : List Text} {members : List (Text × Json)}

/-- Members with other names than the requested ones stay as they are. -/
theorem member?_withFields (r : Record) {name : Text} (hname : name ∉ fields) :
    Json.member? name (r.withFields fields members) = Json.member? name members := by
  induction fields generalizing members with
  | nil => rfl
  | cons field fields ih =>
    have hfield := List.ne_of_not_mem_cons hname
    have hrest := List.not_mem_of_not_mem_cons hname
    rw [withFields_cons, ih hrest]
    cases h : r.extra? field with
    | none => rfl
    | some m =>
      obtain rfl := fst_of_extra? h
      exact Keyed.lookup_set_of_ne _ _ hfield

/-- No name comes twice. -/
theorem withFields_nodup (r : Record) (h : (members.map Prod.fst).Nodup) :
    ((r.withFields fields members).map Prod.fst).Nodup := by
  induction fields generalizing members with
  | nil => exact h
  | cons field fields ih =>
    rw [withFields_cons]
    cases r.extra? field with
    | none => exact ih h
    | some m => exact ih (Keyed.set_nodup m.2 h)

end Fields

/-! ## Instants -/

/-- The microseconds from the start of 1970 to the creation of a record. Its time is a number of
seconds, which is rounded if it is no integer. -/
def instant? (r : Record) : Option Int :=
  match r.get "created" with
  | .data (.float x) => if x.isFinite then some (Moment.microseconds x) else none
  | .data (.int n) => some (n * 1000000)
  | .data (.bool b) => some ((if b then 1 else 0) * 1000000)
  | _ => none

/-- A time that is a number is at most half a microsecond away from the instant, but for what is
lost when a fraction is scaled. -/
theorem instant?_near {r : Record} {v : Json} {seconds : ℚ} (hcreated : r.get "created" = .data v)
    (hv : v.IsNumber seconds) :
    ∃ u, r.instant? = some u ∧ |(u : ℚ) - seconds * 1000000| ≤ 1 / 2 + 1 / 2 ^ 33 := by
  rw [instant?, hcreated]
  cases hv with
  | bool b =>
    refine ⟨_, rfl, ?_⟩
    cases b <;> norm_num
  | int n =>
    refine ⟨_, rfl, ?_⟩
    push_cast
    rw [sub_self, abs_zero]
    norm_num
  | @float x h => exact ⟨_, if_pos h, Moment.microseconds_near x⟩

/-- The moment of a record is that of its instant. -/
theorem moment_eq {r : Record} {u : Int} {m : Moment} (hinstant : r.instant? = some u)
    (hu : Moment.InCalendar u) (hm : Moment.ofMicroseconds u = .ok m) : r.moment = .ok m := by
  have hwhole {n : Int} (hn : n * 1000000 = u) : Moment.ofWholeSeconds n = .ok m := by
    subst hn
    rw [Moment.ofWholeSeconds_eq hu, hm]
  rw [instant?] at hinstant
  rw [moment]
  generalize r.get "created" = created at hinstant ⊢
  cases created with
  | data v =>
    cases v with
    | float x =>
      by_cases hfinite : x.isFinite = true
      · have hsome : some (Moment.microseconds x) = some u := (if_pos hfinite).symm.trans hinstant
        obtain rfl := Option.some.inj hsome
        show (Moment.ofSeconds x).mapError RecordFault.moment = .ok m
        rw [Moment.ofSeconds_eq hfinite hu, hm]
        rfl
      · cases (if_neg hfinite).symm.trans hinstant
    | int n =>
      show (Moment.ofWholeSeconds n).mapError RecordFault.moment = .ok m
      rw [hwhole (Option.some.inj hinstant)]
      rfl
    | bool b =>
      show (Moment.ofWholeSeconds (if b then 1 else 0)).mapError RecordFault.moment = .ok m
      rw [hwhole (Option.some.inj hinstant)]
      rfl
    | null => cases hinstant
    | str t => cases hinstant
    | arr items => cases hinstant
    | obj members => cases hinstant
  | error t => cases hinstant

/-! ## Timestamps -/

/-- A text is the timestamp in the line of a record, and it is read as an instant. -/
structure Stamped (fields : List Text) (r : Record) (u : Int) (t : Text) : Prop where
  /-- The instant is the time of the record in microseconds, rounded. -/
  rounded : ∀ v seconds, r.get "created" = .data v → v.IsNumber seconds →
    |(u : ℚ) - seconds * 1000000| ≤ 1 / 2 + 1 / 2 ^ 33
  /-- If a record has a message and a report, it has a line, with this one timestamp. -/
  written : ∀ message report, r.filledMessage = .ok message → r.report? = .ok report →
    ∃ members, r.line fields = .ok (Json.write .spaced (.obj members))
      ∧ (members.map Prod.fst).Nodup ∧ Json.member? "timestamp" members = some (.str t)
  /-- It is read as a date and time in UTC. -/
  read : Moment.instantOf? t = some u

/-- The timestamp is the text of the moment. -/
theorem members_spec {r : Record} {fields : List Text} {m : Moment} {message : Text}
    {report : Option Text} (hfields : ("timestamp" : Text) ∉ fields) (hmoment : r.moment = .ok m)
    (hmessage : r.filledMessage = .ok message) (hreport : r.report? = .ok report) :
    ∃ members, r.members fields = .ok members ∧ (members.map Prod.fst).Nodup
      ∧ Json.member? "timestamp" members = some (.str m.text) := by
  obtain ⟨members, hmembers⟩ : ∃ members, members = r.withFields fields
    [("timestamp", .str m.text), ("level", (r.get "levelname").toJson),
      ("logger", (r.get "name").toJson), ("message", .str message)] := ⟨_, rfl⟩
  have hnodup : (members.map Prod.fst).Nodup := by
    rw [hmembers]
    refine withFields_nodup r ?_
    show fixedNames.Nodup
    decide
  have htimestamp : Json.member? "timestamp" members = some (.str m.text) := by
    rw [hmembers, member?_withFields r hfields]
    rfl
  rw [Record.members, hmoment, hmessage, hreport]
  cases report with
  | none =>
    refine ⟨members, ?_, hnodup, htimestamp⟩
    rw [hmembers]
    rfl
  | some report =>
    refine ⟨Keyed.set "exception" (.str report) members, ?_, Keyed.set_nodup _ hnodup, ?_⟩
    · rw [hmembers]
      rfl
    · rw [Json.member?, Keyed.lookup_set_of_ne _ _ (by decide)]
      exact htimestamp

theorem stamped {r : Record} {fields : List Text} {m : Moment}
    (hfields : ("timestamp" : Text) ∉ fields) (hinstant : r.instant? = some m.instant)
    (hmoment : r.moment = .ok m) (h : m.IsUtc) : Stamped fields r m.instant m.text where
  rounded := by
    intro v seconds hcreated hv
    obtain ⟨u, hu, hnear⟩ := instant?_near hcreated hv
    rw [← Option.some.inj (hu.symm.trans hinstant)]
    exact hnear
  written := by
    intro message report hmessage hreport
    obtain ⟨members, hmembers, hnodup, hlookup⟩ :=
      members_spec hfields hmoment hmessage hreport
    refine ⟨members, ?_, hnodup, hlookup⟩
    rw [line, hmembers]
    rfl
  read := Moment.instantOf?_text h

/-- **Timestamps are the instants of their records**, if these lie in the years 1 to 9999: they are
read as such, other instants have other timestamps, and the order of timestamps as texts is that of
the instants. -/
theorem timestamps_ordered {fields : List Text} {r r' : Record} {u u' : Int}
    (hfields : ("timestamp" : Text) ∉ fields)
    (hinstant : r.instant? = some u) (hu : Moment.InCalendar u)
    (hinstant' : r'.instant? = some u') (hu' : Moment.InCalendar u') :
    ∃ t t', Stamped fields r u t ∧ Stamped fields r' u' t' ∧ (t = t' ↔ u = u')
      ∧ (Text.precedes t t' = true ↔ u ≤ u') := by
  obtain ⟨m, hm, h, rfl⟩ := Moment.ofMicroseconds_spec hu
  obtain ⟨m', hm', h', rfl⟩ := Moment.ofMicroseconds_spec hu'
  have hstamped := stamped hfields hinstant (moment_eq hinstant hu hm) h
  have hstamped' := stamped hfields hinstant' (moment_eq hinstant' hu' hm') h'
  refine ⟨m.text, m'.text, hstamped, hstamped', ⟨?_, ?_⟩, Moment.precedes_text_iff h h'⟩
  · intro htext
    have hboth := hstamped.read
    rw [htext, hstamped'.read] at hboth
    exact (Option.some.inj hboth).symm
  · intro hinstants
    rw [hinstants, hm'] at hm
    rw [Except.ok.inj hm]

/-- A record of half a second before 1970. -/
def early : Record where
  name := "app"
  level := 20
  message := "ready"
  arguments := []
  created := ⟨0xBFE0000000000000⟩
  attributes := []
  failure := none

/-- The same record with its time set to the start of 1970, as an integer. -/
def late : Record := { early with attributes := [("created", .data (.int 0))] }

theorem early_before_late : ∃ t t', Stamped standardFields early (-500000) t
    ∧ Stamped standardFields late 0 t' ∧ t ≠ t' ∧ Text.precedes t t' = true := by
  have hearly : Moment.InCalendar (-500000) := Moment.inCalendar_iff.mpr (by decide)
  have hlate : Moment.InCalendar 0 := Moment.inCalendar_iff.mpr (by decide)
  obtain ⟨t, t', hread, hread', hsame, hbefore⟩ := @timestamps_ordered standardFields early late
    (-500000) 0 (by decide) (by decide +kernel) hearly rfl hlate
  exact ⟨t, t', hread, hread', fun h => absurd (hsame.mp h) (by decide),
    hbefore.mpr (by decide)⟩

end Deeplink.Log.Record

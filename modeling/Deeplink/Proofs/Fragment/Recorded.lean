import Deeplink.Proofs.Fragment.Commands

/-!
# Recorded sinks

What a sink is told, written down beside it. A sink may do anything when it is told something, and
it may keep nothing of it; so the record is kept where it cannot reach.

- `Sink.recorded`: a sink together with the record of what it has been told.
- `Fragment.report_recorded`: one report is one entry, and the sink does what it does without the
  record.
- `Fragment.decodeArguments_recorded`, `Fragment.parse_recorded`: what has been told when arguments
  have been decoded, and when a fragment has been parsed.
-/

namespace Deeplink

variable {σ : Type}

namespace Sink

/-- A sink beside the record of what it has been told, the oldest first. The entry is made before
the sink does anything. -/
def recorded (tell : Sink σ) : Sink (List Diagnostic × σ) := fun d => do
  Act.modify fun s => (s.1 ++ [d], s.2)
  (tell d).focus Prod.snd fun t s => (s.1, t)

theorem recorded_apply (tell : Sink σ) (d : Diagnostic) (told : List Diagnostic) (s : σ) :
    tell.recorded d (told, s)
      = ⟨(tell d s).result, (told ++ [d], (tell d s).state), (tell d s).trace⟩ := by
  have hentry : ((Act.modify fun s : List Diagnostic × σ => (s.1 ++ [d], s.2)) (told, s)).result
      = .ok () := rfl
  rw [recorded, Act.bind_of_ok hentry]
  rfl

end Sink

namespace Fragment

/-- The outcome of an act with a record of what has been told before, and of `ds` behind it. -/
def recording {α : Type} (told ds : List Diagnostic) (o : Outcome σ α) :
    Outcome (List Diagnostic × σ) α :=
  ⟨o.result, (told ++ ds, o.state), o.trace⟩

/-- **One report is one entry.** The sink does what it does without the record. -/
theorem report_recorded (tell : Sink σ) (d : Diagnostic) (told : List Diagnostic) (s : σ) :
    report (some tell.recorded) d (told, s) = recording told [d] (report (some tell) d s) := by
  have htold : ((tell.recorded d).attempt (told, s)).result = .ok (tell d s).result := by
    rw [Act.attempt, Sink.recorded_apply]
  have htell : ((tell d).attempt s).result = .ok (tell d s).result := rfl
  rw [report, report, Act.bind_of_ok htold, Act.bind_of_ok htell]
  simp only [Act.attempt, Sink.recorded_apply]
  cases (tell d s).result with
  | ok u => rfl
  | error e =>
    by_cases he : e.isOrdinary = true
    · simp only [if_pos he]
      rfl
    · simp only [if_neg he]
      rfl

variable {tell : Sink σ}

theorem reportAll_recorded (h : IsOrdinary (some tell)) (ds told : List Diagnostic) (s : σ) :
    reportAll (some tell.recorded) ds (told, s)
      = recording told ds (reportAll (some tell) ds s) := by
  induction ds generalizing told s with
  | nil =>
    rw [recording, List.append_nil]
    rfl
  | cons d ds ih =>
    have hfirst := report_of_ordinary h d s
    have htold : (report (some tell.recorded) d (told, s)).result = .ok () := by
      rw [report_recorded]
      exact hfirst
    rw [reportAll, reportAll, Act.bind_of_ok htold, Act.bind_of_ok hfirst, report_recorded]
    simp only [recording, ih, List.append_assoc, List.singleton_append]

/-- What follows the reports does not reach the record. -/
theorem reportAll_recorded_bind {α : Type} (h : IsOrdinary (some tell)) (ds told : List Diagnostic)
    (s : σ) (a : α) :
    (reportAll (some tell.recorded) ds >>= fun _ => pure a) (told, s)
      = recording told ds ((reportAll (some tell) ds >>= fun _ => pure a) s) := by
  have hplain := reportAll_of_ordinary h ds s
  have hrecorded : (reportAll (some tell.recorded) ds (told, s)).result = .ok () := by
    rw [reportAll_recorded h]
    exact hplain
  rw [Act.bind_of_ok hrecorded, Act.bind_of_ok hplain, reportAll_recorded h]
  rfl

/-- **The sink is told of arguments that cannot be decoded**, and of nothing else. -/
theorem decodeArguments_recorded (h : IsOrdinary (some tell)) (raw : Option Text)
    (told : List Diagnostic) (s : σ) :
    decodeArguments (some tell.recorded) raw (told, s)
      = recording told (Arguments.diagnostic? raw).toList (decodeArguments (some tell) raw s) := by
  rw [decodeArguments_eq, decodeArguments_eq, reportAll_recorded_bind h]

/-- **The sink is told what there is to report about a fragment**, and of nothing else. -/
theorem parse_recorded (h : IsOrdinary (some tell)) (methods : List Text) (raw : Option Text)
    (told : List Diagnostic) (s : σ) :
    parse methods (some tell.recorded) raw (told, s)
      = recording told (diagnostics methods raw) (parse methods (some tell) raw s) := by
  rw [parse_eq, parse_eq, reportAll_recorded_bind h]

end Fragment

end Deeplink

import Deeplink.Proofs.Fragment.Decoding
import Deeplink.Proofs.Fragment.Grammar

/-!
# Sinks without influence

A sink is told of arguments that cannot be decoded, and that is all it has to do with parsing: what
it does, and whether it fails, changes neither the commands nor what it is told later. The sink
never affects control flow, and one that raises is logged (specification, 4.1).

- `Arguments.Fails`: the three stages at which a text has no arguments, and what is wrong there.
- `Fragment.Reports`: what there is to report about texts: one diagnostic for each token with a
  known method whose arguments cannot be decoded, and nothing else.
- `Fragment.Calls`: the calls of a sink, one after the other. One that fails is logged once.
- `Fragment.parse_unswayed`: with a sink and without one, a fragment is parsed to the same commands,
  and there is one call or one notice for each report.
-/

namespace Deeplink

/-! ## Texts without arguments -/

namespace Arguments

variable {raw : Text} {fault : ArgumentsFault}

/-- A text that is not empty has no arguments: its escapes cannot be decoded, what they encode is
not JSON, or it is JSON but no object. -/
inductive Fails (raw : Text) : ArgumentsFault → Prop where
  | percent {fault : Percent.DecodeFault} (hraw : raw ≠ [])
      (h : Percent.decode raw = .error fault) : Fails raw (.percent fault)
  | json {text : Text} {fault : Json.ReadFault} (hraw : raw ≠ [])
      (htext : Percent.decode raw = .ok text) (h : Json.read Json.strict text = .error fault) :
      Fails raw (.json fault)
  | notAnObject {text : Text} {v : Json} (hraw : raw ≠ [])
      (htext : Percent.decode raw = .ok text) (hv : Json.read Json.strict text = .ok v)
      (h : ∀ members, v ≠ .obj members) : Fails raw (.notAnObject v.kindName)

/-- Only an object has members. -/
theorem ofJson_eq_error_iff {v : Json} : ofJson v = .error fault
    ↔ (∀ members, v ≠ .obj members) ∧ fault = .notAnObject v.kindName := by
  cases v with
  | obj members =>
    constructor
    · rintro ⟨⟩
    · rintro ⟨h, -⟩
      exact absurd rfl (h members)
  | _ =>
    constructor
    · rintro ⟨⟩
      exact ⟨fun _ => nofun, rfl⟩
    · rintro ⟨-, rfl⟩
      rfl

/-- **These are the texts that cannot be decoded**, and their faults. -/
theorem fails_iff : Fails raw fault ↔ decode (some raw) = .error fault := by
  constructor
  · intro h
    cases h with
    | percent hraw h => rw [decode_some hraw, ofText, h]
    | json hraw htext h =>
      rw [decode_some hraw, ofText, htext]
      dsimp only
      rw [h]
    | notAnObject hraw htext hv h =>
      rw [decode_some hraw, ofText, htext]
      dsimp only
      rw [hv]
      exact ofJson_eq_error_iff.mpr ⟨h, rfl⟩
  · intro h
    have hraw : raw ≠ [] := by
      rintro rfl
      cases h
    rw [decode_some hraw, ofText] at h
    cases htext : Percent.decode raw with
    | error cause =>
      rw [htext] at h
      obtain rfl := Except.error.inj h
      exact .percent hraw htext
    | ok text =>
      rw [htext] at h
      dsimp only at h
      cases hread : Json.read Json.strict text with
      | error cause =>
        rw [hread] at h
        obtain rfl := Except.error.inj h
        exact .json hraw htext hread
      | ok v =>
        rw [hread] at h
        obtain ⟨hobj, rfl⟩ := ofJson_eq_error_iff.mp h
        exact .notAnObject hraw htext hread hobj

/-- What is reported is what is wrong with the text. Missing arguments are not reported. -/
theorem diagnostic?_eq_some_iff {payload : Option Text} {d : Diagnostic} :
    diagnostic? payload = some d ↔ ∃ raw, payload = some raw ∧ Fails raw d.fault := by
  cases payload with
  | none =>
    constructor
    · rintro ⟨⟩
    · rintro ⟨raw, ⟨⟩, -⟩
  | some raw =>
    rw [diagnostic?]
    constructor
    · intro h
      refine ⟨raw, rfl, fails_iff.mpr ?_⟩
      cases hdecode : decode (some raw) with
      | ok args =>
        rw [hdecode] at h
        cases h
      | error fault =>
        rw [hdecode] at h
        rw [← Option.some.inj h]
    · rintro ⟨raw', hraw, hfails⟩
      obtain rfl := Option.some.inj hraw
      rw [fails_iff.mp hfails]

/-- Arguments that do not fail are not reported. -/
theorem diagnostic?_eq_none_iff {payload : Option Text} : diagnostic? payload = none
    ↔ ∀ raw fault, payload = some raw → ¬ Fails raw fault := by
  rw [Option.eq_none_iff_forall_ne_some]
  constructor
  · intro h raw fault hraw hfails
    exact h ⟨fault⟩ (diagnostic?_eq_some_iff.mpr ⟨raw, hraw, hfails⟩)
  · intro h d hd
    obtain ⟨raw, hraw, hfails⟩ := diagnostic?_eq_some_iff.mp hd
    exact h raw d.fault hraw hfails

end Arguments

namespace Fragment

variable {σ : Type} {methods : List Text}

/-! ## Reports -/

/-- What there is to report about texts, from left to right. -/
inductive Reports (methods : List Text) : List Text → List Diagnostic → Prop where
  | nil : Reports methods [] []
  /-- A token with a known method whose arguments cannot be decoded: what is wrong with them. -/
  | undecodable {token : Token} {t raw : Text} {fault : ArgumentsFault} {ts : List Text}
      {ds : List Diagnostic} (h : token.Spells t) (hknown : token.method ∈ methods)
      (hraw : token.arguments = some raw) (hfault : Arguments.Fails raw fault)
      (hrest : Reports methods ts ds) : Reports methods (t :: ts) (⟨fault⟩ :: ds)
  /-- A token with a known method whose arguments are missing or can be decoded: nothing. -/
  | decodable {token : Token} {t : Text} {ts : List Text} {ds : List Diagnostic}
      (h : token.Spells t) (hknown : token.method ∈ methods)
      (hargs : ∀ raw fault, token.arguments = some raw → ¬ Arguments.Fails raw fault)
      (hrest : Reports methods ts ds) : Reports methods (t :: ts) ds
  /-- A text that spells no token with a known method: nothing, whatever its arguments are. -/
  | dropped {t : Text} {ts : List Text} {ds : List Diagnostic}
      (h : ∀ token : Token, token.Spells t → token.method ∉ methods)
      (hrest : Reports methods ts ds) : Reports methods (t :: ts) ds

theorem diagnostic?_eq {token : Token} {t : Text} (h : token.Spells t)
    (hknown : token.method ∈ methods) :
    diagnostic? methods t = Arguments.diagnostic? token.arguments := by
  rw [diagnostic?, known?_eq_some_iff.mpr ⟨h, hknown⟩]
  rfl

/-- **Texts have one list of reports**, and that is what is reported about them. -/
theorem reports_iff {ts : List Text} {ds : List Diagnostic} :
    Reports methods ts ds ↔ ds = ts.filterMap (diagnostic? methods) := by
  constructor
  · intro h
    induction h with
    | nil => rfl
    | undecodable h hknown hraw hfault hrest ih =>
      have hreport := Arguments.diagnostic?_eq_some_iff.mpr ⟨_, hraw, hfault⟩
      rw [List.filterMap_cons, diagnostic?_eq h hknown, hreport, ih]
    | decodable h hknown hargs hrest ih =>
      have hreport := Arguments.diagnostic?_eq_none_iff.mpr hargs
      rw [List.filterMap_cons, diagnostic?_eq h hknown, hreport, ih]
    | dropped h hrest ih =>
      rw [List.filterMap_cons, diagnostic?, known?_eq_none_iff.mpr h, ih]
      rfl
  · rintro rfl
    induction ts with
    | nil => exact .nil
    | cons t ts ih =>
      rw [List.filterMap_cons]
      cases hknown : known? methods t with
      | none =>
        rw [diagnostic?, hknown]
        exact .dropped (known?_eq_none_iff.mp hknown) ih
      | some token =>
        obtain ⟨hspells, hmethod⟩ := known?_eq_some_iff.mp hknown
        rw [diagnostic?_eq hspells hmethod]
        cases hreport : Arguments.diagnostic? token.arguments with
        | none =>
          exact .decodable hspells hmethod (Arguments.diagnostic?_eq_none_iff.mp hreport) ih
        | some d =>
          obtain ⟨raw, hraw, hfails⟩ := Arguments.diagnostic?_eq_some_iff.mp hreport
          exact .undecodable hspells hmethod hraw hfails ih

/-! ## Calls -/

/-- A sink is called with one diagnostic after the other: the state before the calls and the one
behind them, and what they show. A call that fails is followed by one notice about the failure, and
by the next call. -/
inductive Calls (tell : Sink σ) : List Diagnostic → σ → σ → List Signal → Prop where
  | nil (s : σ) : Calls tell [] s s []
  | returned {d : Diagnostic} {ds : List Diagnostic} {s s' : σ} {xs : List Signal}
      (h : (tell d s).result = .ok ()) (hrest : Calls tell ds (tell d s).state s' xs) :
      Calls tell (d :: ds) s s' ((tell d s).trace ++ xs)
  | raised {d : Diagnostic} {ds : List Diagnostic} {s s' : σ} {xs : List Signal} {e : Failure}
      (h : (tell d s).result = .error e) (hrest : Calls tell ds (tell d s).state s' xs) :
      Calls tell (d :: ds) s s'
        ((tell d s).trace ++ .notice (Diagnostic.sinkNotice e) :: xs)

variable {tell : Sink σ}

theorem attempt_result (d : Diagnostic) (s : σ) :
    ((tell d).attempt s).result = .ok (tell d s).result := rfl

/-- One report is one call, and nothing else if the call returns. -/
theorem report_of_returned {d : Diagnostic} {s : σ} (h : (tell d s).result = .ok ()) :
    report (some tell) d s = ⟨.ok (), (tell d s).state, (tell d s).trace⟩ := by
  rw [report, Act.bind_of_ok (attempt_result d s), h]
  show (⟨.ok (), (tell d s).state, (tell d s).trace ++ []⟩ : Outcome σ Unit) = _
  rw [List.append_nil]

/-- If the call fails in an ordinary way, one notice follows. -/
theorem report_of_raised {d : Diagnostic} {s : σ} {e : Failure} (h : (tell d s).result = .error e)
    (he : e.isOrdinary = true) : report (some tell) d s = ⟨.ok (), (tell d s).state,
      (tell d s).trace ++ [.notice (Diagnostic.sinkNotice e)]⟩ := by
  rw [report, Act.bind_of_ok (attempt_result d s), h]
  simp only [if_pos he]
  rfl

/-- **Reports are calls, one for each of them**, whatever fails. -/
theorem reportAll_calls (htell : IsOrdinary (some tell)) (ds : List Diagnostic) (s : σ) :
    ∃ s' xs, Calls tell ds s s' xs ∧ reportAll (some tell) ds s = ⟨.ok (), s', xs⟩ := by
  induction ds generalizing s with
  | nil => exact ⟨s, [], .nil s, rfl⟩
  | cons d ds ih =>
    obtain ⟨s', xs, hcalls, hrest⟩ := ih (tell d s).state
    rw [reportAll]
    cases hr : (tell d s).result with
    | ok u =>
      have hreport := report_of_returned hr
      rw [Act.bind_of_ok (a := ()) (by rw [hreport]), hreport, hrest]
      exact ⟨s', _, .returned hr hcalls, rfl⟩
    | error e =>
      have hreport := report_of_raised hr (htell tell rfl d s e hr)
      rw [Act.bind_of_ok (a := ()) (by rw [hreport]), hreport, hrest, List.append_assoc]
      exact ⟨s', _, .raised hr hcalls, rfl⟩

/-- The sink that records its calls, and does nothing else. -/
def recorder : Sink (List Diagnostic) := fun d told => ⟨.ok (), told ++ [d], []⟩

theorem recorder_isOrdinary : IsOrdinary (some recorder) := by
  intro tell htell d s e he
  obtain rfl := Option.some.inj htell
  cases he

/-- The sink that records has recorded what it has been called with. -/
theorem Calls.of_recorder {ds told told' : List Diagnostic} {xs : List Signal}
    (h : Calls recorder ds told told' xs) : told' = told ++ ds ∧ xs = [] := by
  induction h with
  | nil told => exact ⟨(List.append_nil told).symm, rfl⟩
  | returned h hrest ih =>
    obtain ⟨rfl, rfl⟩ := ih
    exact ⟨List.append_assoc _ _ _, rfl⟩
  | raised h hrest ih => cases h

/-! ## Parsing -/

/-- What a sink has to do with the parsing of a fragment to the commands `cs`, about which `ds` is
reported. -/
structure Unswayed (methods : List Text) (raw : Option Text) (tell : Sink σ) (s : σ)
    (cs : List Command) (ds : List Diagnostic) : Prop where
  /-- The commands are what the fragment says. A missing fragment is an empty one. -/
  said : Says methods (raw.getD []) cs
  /-- The reports are about its texts, from left to right. -/
  reported : ∃ ts, Splits (raw.getD []) ts ∧ Reports methods ts ds
  /-- Without a sink there is one warning for each report, and nothing else happens. -/
  logged : ∀ {τ : Type} (t : τ),
    parse methods none raw t = ⟨.ok cs, t, ds.map fun d => .notice d.notice⟩
  /-- A sink that only records has recorded the reports, and nothing is logged. -/
  recorded : ∀ told, parse methods (some recorder) raw told = ⟨.ok cs, told ++ ds, []⟩
  /-- The sink is called once for each report, and each call that fails is logged once. -/
  called : ∃ s' xs, Calls tell ds s s' xs ∧ parse methods (some tell) raw s = ⟨.ok cs, s', xs⟩
  /-- A record of its calls has the reports, too. -/
  told : ∀ told, ∃ s' xs,
    parse methods (some tell.recorded) raw (told, s) = ⟨.ok cs, (told ++ ds, s'), xs⟩

theorem parse_calls (htell : IsOrdinary (some tell)) (methods : List Text) (raw : Option Text)
    (s : σ) : ∃ s' xs, Calls tell (diagnostics methods raw) s s' xs
      ∧ parse methods (some tell) raw s = ⟨.ok (commands methods raw), s', xs⟩ := by
  obtain ⟨s', xs, hcalls, hreports⟩ := reportAll_calls htell (diagnostics methods raw) s
  refine ⟨s', xs, hcalls, ?_⟩
  rw [parse_eq, Act.bind_of_ok (a := ()) (by rw [hreports]), hreports]
  show (⟨.ok (commands methods raw), s', xs ++ []⟩ : Outcome σ (List Command)) = _
  rw [List.append_nil]

/-- **A sink does not sway the parser**: whatever it does, and whichever of its calls fail, the
commands are those that there are without a sink, and it is called once for each report. -/
theorem parse_unswayed (methods : List Text) (raw : Option Text)
    (htell : IsOrdinary (some tell)) (s : σ) :
    ∃ cs ds, Unswayed methods raw tell s cs ds := by
  refine ⟨commands methods raw, diagnostics methods raw, ?_, ?_, ?_, ?_, ?_, ?_⟩
  · exact says_iff.mpr rfl
  · exact ⟨tokens (raw.getD []), splits_iff.mpr rfl, reports_iff.mpr rfl⟩
  · exact parse_logged methods raw
  · intro told
    obtain ⟨told', xs, hcalls, hparse⟩ := parse_calls recorder_isOrdinary methods raw told
    obtain ⟨rfl, rfl⟩ := hcalls.of_recorder
    exact hparse
  · exact parse_calls htell methods raw s
  · intro told
    rw [parse_recorded htell, recording, parse_of_ordinary htell]
    exact ⟨_, _, rfl⟩

/-- A failure of a sink. -/
def sinkDown : Failure := .of (.raised .runtime "sink down")

/-- A sink that counts its calls, and fails at the second one of every two. -/
def faltering : Sink Nat := fun _ n =>
  ⟨if n % 2 = 0 then .ok () else .error sinkDown, n + 1, []⟩

/-- Four tokens have arguments that cannot be decoded, but one of them has a method that is not
known. Between them are tokens without arguments, and one with an object. -/
def strewn : Text :=
  "#e:run:a?%&e:run:b&x:y:z?%&e:run:c?%C3&e:run:d?&e:run:e?%7B%7D&e:run:f?[1]"

/-- The second of three calls fails. There are six commands all the same, and one notice. -/
theorem parse_strewn : IsOrdinary (some faltering)
    ∧ ∃ cs ds, Unswayed ["e:run"] (some strewn) faltering 0 cs ds
      ∧ cs.map Command.name = ["a", "b", "c", "d", "e", "f"]
      ∧ ds = [⟨.percent (.malformed 0)⟩, ⟨.percent (.octets ⟨0, 0, 0xC3, .unexpectedEnd⟩)⟩,
        ⟨.notAnObject "list"⟩]
      ∧ parse ["e:run"] (some faltering) (some strewn) 0
        = ⟨.ok cs, 3, [.notice (Diagnostic.sinkNotice sinkDown)]⟩ := by
  have htell : IsOrdinary (some faltering) := by
    intro tell htell d n e he
    obtain rfl := Option.some.inj htell
    unfold faltering at he
    dsimp only at he
    split at he
    · cases he
    · obtain rfl := Except.error.inj he
      rfl
  obtain ⟨cs, ds, h⟩ := parse_unswayed ["e:run"] (some strewn) htell 0
  have hcs : cs.map Command.name = ["a", "b", "c", "d", "e", "f"] := by
    rw [says_iff.mp h.said]
    decide +kernel
  have hds : ds = [⟨.percent (.malformed 0)⟩,
      ⟨.percent (.octets ⟨0, 0, 0xC3, .unexpectedEnd⟩)⟩, ⟨.notAnObject "list"⟩] := by
    obtain ⟨ts, hts, hreports⟩ := h.reported
    rw [reports_iff.mp hreports, splits_iff.mp hts]
    decide +kernel
  refine ⟨htell, cs, ds, h, hcs, hds, ?_⟩
  obtain ⟨s', xs, hcalls, hparse⟩ := h.called
  rw [hparse]
  subst hds
  -- which calls fail is known from their numbers
  rcases hcalls with _ | ⟨-, hcalls⟩ | ⟨⟨⟩, -⟩
  rcases hcalls with _ | ⟨⟨⟩, -⟩ | ⟨hfailed, hcalls⟩
  rcases hcalls with _ | ⟨-, hcalls⟩ | ⟨⟨⟩, -⟩
  cases hcalls
  obtain rfl := Except.error.inj hfailed
  rfl

end Fragment

end Deeplink

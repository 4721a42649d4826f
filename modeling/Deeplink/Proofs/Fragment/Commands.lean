import Deeplink.Fragment
import Deeplink.Proofs.Json.Members
import Deeplink.Proofs.Task.Work

/-!
# The commands of a fragment

Which commands a fragment has does not depend on the sink, and neither does what is reported. The
steps are those of the parser (specification, 4.1).

- `Fragment.command?`, `Fragment.diagnostic?`: the command of a token, and what is reported about
  it.
- `Fragment.commands`, `Fragment.diagnostics`: those of a fragment.
- `Fragment.commands_nodup`: the arguments of a command have different names.
- `Fragment.parse_eq`: to parse is to report one after the other, and to have the commands.
- `Fragment.eq_commands_of_parse`: a sink does not change the commands.
- `Fragment.method_mem_of_mem_commands`: the method of a command is one of those that are known.
- `Fragment.Cancelled`, `Fragment.parse_error`: only a cancellation in the sink keeps a fragment
  from being read.
- `Fragment.IsOrdinary`, `Fragment.parse_of_ordinary`: sinks without one.
- `Fragment.parse_quiet`: parsing does nothing else if there is nothing to report.
- `Fragment.parse_logged`: without a sink, parsing does not fail and changes nothing.
-/

namespace Deeplink

/-! ## Tokens -/

/-- The arguments that a text is taken for: none, if it cannot be decoded. -/
def Arguments.orNone (raw : Option Text) : Args :=
  match decode raw with
  | .ok args => args
  | .error _ => []

/-- What is reported about a text that cannot be decoded. -/
def Arguments.diagnostic? (raw : Option Text) : Option Diagnostic :=
  match decode raw with
  | .ok _ => none
  | .error fault => some ⟨fault⟩

/-- Arguments that have been decoded are those of an object that has been read, or none. -/
theorem Arguments.eq_nil_or_read {raw : Option Text} {args : Args} (h : decode raw = .ok args) :
    args = [] ∨ ∃ text, Json.read Json.strict text = .ok (.obj args) := by
  unfold decode at h
  split at h
  · exact .inl (Except.ok.inj h).symm
  · exact .inl (Except.ok.inj h).symm
  · unfold ofText at h
    split at h
    · cases h
    · next text _ =>
      split at h
      · cases h
      · next v hread =>
        cases v with
        | obj members =>
          cases h
          exact .inr ⟨text, hread⟩
        | _ => cases h

theorem Arguments.decode_nodup {raw : Option Text} {args : Args} (h : decode raw = .ok args) :
    (args.map Prod.fst).Nodup := by
  rcases eq_nil_or_read h with rfl | ⟨text, hread⟩
  · exact List.nodup_nil
  · exact Json.read_obj_nodup hread

theorem Arguments.orNone_nodup (raw : Option Text) : ((orNone raw).map Prod.fst).Nodup := by
  unfold orNone
  cases h : decode raw with
  | ok args => exact decode_nodup h
  | error fault => exact List.nodup_nil

namespace Fragment

variable {σ : Type}

/-- The token of a text, if its method is known. -/
def known? (methods : List Text) (t : Text) : Option Token :=
  (Token.ofText? t).filter fun token => decide (token.method ∈ methods)

/-- The command of a token. -/
def command? (methods : List Text) (t : Text) : Option Command :=
  (known? methods t).map fun token =>
    ⟨token.method, token.name, Arguments.orNone token.arguments⟩

/-- What is reported about a token. -/
def diagnostic? (methods : List Text) (t : Text) : Option Diagnostic :=
  (known? methods t).bind fun token => Arguments.diagnostic? token.arguments

/-- One report after the other. -/
def reportAll (sink : Option (Sink σ)) : List Diagnostic → Act σ Unit
  | [] => pure ()
  | d :: ds => do
    report sink d
    reportAll sink ds

/-- Reports are made one after the other. -/
theorem reportAll_append (sink : Option (Sink σ)) (ds ds' : List Diagnostic) :
    reportAll sink (ds ++ ds') = reportAll sink ds >>= fun _ => reportAll sink ds' := by
  induction ds with
  | nil => rw [List.nil_append, reportAll, Act.pure_bind]
  | cons d ds ih =>
    rw [List.cons_append, reportAll, ih, reportAll, Act.bind_assoc]

/-- Arguments that cannot be decoded are reported once, and are none. -/
theorem decodeArguments_eq (sink : Option (Sink σ)) (raw : Option Text) :
    decodeArguments sink raw = reportAll sink (Arguments.diagnostic? raw).toList
      >>= fun _ => pure (Arguments.orNone raw) := by
  unfold decodeArguments Arguments.diagnostic? Arguments.orNone
  cases Arguments.decode raw with
  | ok args => rfl
  | error fault =>
    show _ = (report sink ⟨fault⟩ >>= fun _ => pure ()) >>= _
    rw [Act.bind_assoc]
    rfl

/-- **One token**: what there is to report is reported, and then there is its command. -/
theorem parseToken_eq (methods : List Text) (sink : Option (Sink σ)) (t : Text) :
    parseToken methods sink t = reportAll sink (diagnostic? methods t).toList
      >>= fun _ => pure (command? methods t) := by
  unfold parseToken diagnostic? command? known?
  cases Token.ofText? t with
  | none => rfl
  | some token =>
    by_cases h : token.method ∈ methods
    · simp only [if_pos h, Option.filter, decide_eq_true h]
      rw [decodeArguments_eq, Act.bind_assoc]
      rfl
    · simp only [if_neg h, Option.filter, decide_eq_false h]
      rfl

/-! ## Fragments -/

/-- The commands of a fragment. -/
def commands (methods : List Text) (raw : Option Text) : List Command :=
  (tokens (raw.getD [])).filterMap (command? methods)

/-- The arguments of a command have different names. -/
theorem commands_nodup (methods : List Text) (raw : Option Text) :
    ∀ c ∈ commands methods raw, (c.args.map Prod.fst).Nodup := by
  intro c hc
  obtain ⟨t, -, ht⟩ := List.mem_filterMap.mp hc
  obtain ⟨token, -, rfl⟩ := Option.map_eq_some_iff.mp ht
  exact Arguments.orNone_nodup token.arguments

/-- The method of a command is one of those that are known. -/
theorem method_mem_of_mem_commands {methods : List Text} {raw : Option Text} {c : Command}
    (h : c ∈ commands methods raw) : c.method ∈ methods := by
  obtain ⟨t, -, ht⟩ := List.mem_filterMap.mp h
  obtain ⟨token, htoken, rfl⟩ := Option.map_eq_some_iff.mp ht
  exact of_decide_eq_true (Option.filter_eq_some_iff.mp htoken).2

/-- What is reported about a fragment. -/
def diagnostics (methods : List Text) (raw : Option Text) : List Diagnostic :=
  (tokens (raw.getD [])).filterMap (diagnostic? methods)

/-- **Parsing a fragment is to report what there is to report, token after token.** The commands do
not depend on the reports. -/
theorem parse_eq (methods : List Text) (sink : Option (Sink σ)) (raw : Option Text) :
    parse methods sink raw
      = reportAll sink (diagnostics methods raw) >>= fun _ => pure (commands methods raw) := by
  unfold parse diagnostics commands
  induction tokens (raw.getD []) with
  | nil => rfl
  | cons t ts ih =>
    have hdiagnostics : (t :: ts).filterMap (diagnostic? methods)
        = (diagnostic? methods t).toList ++ ts.filterMap (diagnostic? methods) := by
      cases h : diagnostic? methods t <;> simp [h]
    have hcommands : (t :: ts).filterMap (command? methods)
        = (command? methods t).toList ++ ts.filterMap (command? methods) := by
      cases h : command? methods t <;> simp [h]
    rw [parseTokens, parseToken_eq, ih, hdiagnostics, hcommands, reportAll_append, Act.bind_assoc,
      Act.bind_assoc]
    congr 1
    funext _
    rw [Act.pure_bind, Act.bind_assoc]
    rfl

/-- A fragment that can be read gives its commands, whatever the sink does. -/
theorem eq_commands_of_parse {methods : List Text} {sink : Option (Sink σ)}
    {raw : Option Text} {s : σ} {cs : List Command}
    (h : (parse methods sink raw s).result = .ok cs) : cs = commands methods raw := by
  rw [parse_eq] at h
  cases hr : (reportAll sink (diagnostics methods raw) s).result with
  | error e =>
    rw [Act.bind_of_error hr] at h
    cases h
  | ok u =>
    rw [Act.bind_of_ok hr] at h
    cases h
    rfl

/-! ### Sinks that fail -/

/-- A sink has failed, and the failure is no ordinary one. -/
def Cancelled (sink : Option (Sink σ)) (e : Failure) : Prop :=
  e.isOrdinary = false ∧ ∃ tell ∈ sink, ∃ d s, (tell d s).result = .error e

/-- Only a failure of the sink that is not ordinary keeps a report from being made. -/
theorem report_error {sink : Option (Sink σ)} {d : Diagnostic} {s : σ} {e : Failure}
    (h : (report sink d s).result = .error e) : Cancelled sink e := by
  cases sink with
  | none => cases h
  | some tell =>
    have htell : ((tell d).attempt s).result = .ok (tell d s).result := rfl
    rw [report, Act.bind_of_ok htell] at h
    cases hr : (tell d s).result with
    | ok u =>
      rw [hr] at h
      cases h
    | error e' =>
      rw [hr] at h
      by_cases he : e'.isOrdinary = true
      · -- it is logged, and that is all
        simp only [if_pos he] at h
        cases h
      · simp only [if_neg he] at h
        obtain rfl := Except.error.inj h
        exact ⟨Bool.eq_false_iff.mpr he, tell, rfl, d, s, hr⟩

/-- Several reports end in a failure only if the sink has raised something that is not logged, and
the first such failure is passed on. -/
theorem reportAll_error {sink : Option (Sink σ)} {ds : List Diagnostic} {s : σ} {e : Failure}
    (h : (reportAll sink ds s).result = .error e) : Cancelled sink e := by
  induction ds generalizing s with
  | nil => cases h
  | cons d ds ih =>
    rw [reportAll] at h
    cases hr : (report sink d s).result with
    | error e' =>
      rw [Act.bind_of_error hr] at h
      obtain rfl := Except.error.inj h
      exact report_error hr
    | ok u =>
      rw [Act.bind_of_ok hr] at h
      exact ih h

/-- Only a cancellation keeps a fragment from being read. -/
theorem parse_error {methods : List Text} {sink : Option (Sink σ)} {raw : Option Text} {s : σ}
    {e : Failure} (h : (parse methods sink raw s).result = .error e) : Cancelled sink e := by
  rw [parse_eq] at h
  cases hr : (reportAll sink (diagnostics methods raw) s).result with
  | error e' =>
    rw [Act.bind_of_error hr] at h
    obtain rfl := Except.error.inj h
    exact reportAll_error hr
  | ok u =>
    rw [Act.bind_of_ok hr] at h
    cases h

/-- A sink has no failures but ordinary ones. -/
def IsOrdinary (sink : Option (Sink σ)) : Prop :=
  ∀ tell ∈ sink, ∀ d s e, (tell d s).result = .error e → e.isOrdinary = true

theorem IsOrdinary.not_cancelled {sink : Option (Sink σ)} (hsink : IsOrdinary sink) {e : Failure} :
    ¬ Cancelled sink e := by
  rintro ⟨he, tell, htell, d, s, hr⟩
  rw [hsink tell htell d s e hr] at he
  cases he

/-- A sink with ordinary failures takes every report. -/
theorem report_of_ordinary {sink : Option (Sink σ)} (hsink : IsOrdinary sink) (d : Diagnostic)
    (s : σ) : (report sink d s).result = .ok () := by
  cases hr : (report sink d s).result with
  | ok u => rfl
  | error e => exact absurd (report_error hr) hsink.not_cancelled

/-- A sink with ordinary failures takes any number of reports. -/
theorem reportAll_of_ordinary {sink : Option (Sink σ)} (hsink : IsOrdinary sink)
    (ds : List Diagnostic) (s : σ) : (reportAll sink ds s).result = .ok () := by
  cases hr : (reportAll sink ds s).result with
  | ok u => rfl
  | error e => exact absurd (reportAll_error hr) hsink.not_cancelled

/-- With a sink that has ordinary failures only, all commands of a fragment are given. -/
theorem parse_of_ordinary {methods : List Text} {sink : Option (Sink σ)}
    (hsink : ∀ tell ∈ sink, ∀ d s e, (tell d s).result = .error e → e.isOrdinary = true)
    (raw : Option Text) (s : σ) :
    (parse methods sink raw s).result = .ok (commands methods raw) := by
  cases hr : (parse methods sink raw s).result with
  | ok cs => rw [eq_commands_of_parse hr]
  | error e => exact absurd (parse_error hr) (IsOrdinary.not_cancelled hsink)

/-- Nothing happens if there is nothing to report. -/
theorem parse_quiet {methods : List Text} {raw : Option Text}
    (h : diagnostics methods raw = []) (sink : Option (Sink σ)) (s : σ) :
    parse methods sink raw s = ⟨.ok (commands methods raw), s, []⟩ := by
  rw [parse_eq, h]
  rfl

/-- Without a sink, parsing does not fail and changes nothing. -/
theorem parse_logged (methods : List Text) (raw : Option Text) (s : σ) :
    parse methods none raw s = ⟨.ok (commands methods raw), s,
      (diagnostics methods raw).map fun d => .notice d.notice⟩ := by
  have hall : ∀ ds : List Diagnostic, (reportAll none ds : Act σ Unit) s
      = ⟨.ok (), s, ds.map fun d => .notice d.notice⟩ := by
    intro ds
    induction ds with
    | nil => rfl
    | cons d ds ih =>
      have hreport : ((report none d : Act σ Unit) s).result = .ok () := rfl
      rw [reportAll, Act.bind_of_ok hreport]
      show Outcome.mk ((reportAll none ds : Act σ Unit) s).result
        ((reportAll none ds : Act σ Unit) s).state
        ([.notice d.notice] ++ ((reportAll none ds : Act σ Unit) s).trace) = _
      rw [ih]
      rfl
  rw [parse_eq, Act.bind_of_ok (a := ()) (by rw [hall]), hall]
  simp

end Fragment

end Deeplink

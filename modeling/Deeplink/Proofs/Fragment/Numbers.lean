import Deeplink.Proofs.Fragment.Decoding
import Deeplink.Proofs.Fragment.Grammar
import Deeplink.Proofs.Fragment.Independence
import Deeplink.Proofs.Json.Numbers

/-!
# Numbers in the arguments of a fragment

Which floating-point numbers the commands of a fragment have. The constants that are no JSON are
failures (specification, 4.1); numerals that overflow are not.

- `Fragment.Writes`: a payload is that of an object in which a numeral is shown.
- `Fragment.NumbersOf`: the numbers in the arguments of a payload are the nearest to its numerals.
  They are infinite where the numerals are too large, and that is not reported.
- `Fragment.Found`: a token with a known method, its arguments, and the reports about them.
- `Fragment.parse_numbers`: so it is with all commands of a fragment.
-/

namespace Deeplink.Fragment

open Json

/-! ## Payloads -/

/-- The payload is that of an object, and the numeral `n` is shown in it, `k` levels deep. -/
def Writes (payload : Option Text) (k : Nat) (n : NumberText) : Prop :=
  ∃ raw text pairs, payload = some raw ∧ Percent.decode raw = .ok text
    ∧ SpellsElement text (.obj pairs) ∧ Shows k n (.obj pairs)

/-- What is said of the floating-point numbers in the arguments of a payload. -/
structure NumbersOf (payload : Option Text) (args : Args) (reports : List Diagnostic) : Prop where
  /-- There is no report, or there is one and there are no arguments. -/
  reported : reports = [] ∨ (∃ d, reports = [d]) ∧ args = []
  /-- No report is made about an object within the limits, whatever its numbers are. -/
  accepted : ∀ raw text pairs, payload = some raw → Percent.decode raw = .ok text →
    SpellsElement text (.obj pairs) → (Written.obj pairs).levels ≤ 100 →
    (Written.obj pairs).integerDigits ≤ 4300 → reports = []
  /-- Without a report, they are the nearest to the numerals with a fraction or an exponent. -/
  numbers : reports = [] → ∀ k x, Inside k (.float x) (.obj args) ↔
    ∃ n, Writes payload k n ∧ n.isWhole = false
      ∧ Binary64.IsNearest n.negative n.magnitude x
  notNaN : ∀ k x, Inside k (.float x) (.obj args) → x.isNaN = false
  /-- An infinite number is there exactly if such a numeral is too large. -/
  infinite : ∀ k, (∃ x, Inside k (.float x) (.obj args) ∧ x.isInfinite = true) ↔
    reports = [] ∧ ∃ n, Writes payload k n ∧ n.isWhole = false
      ∧ Binary64.overflow ≤ n.magnitude

theorem not_inside_nil {k : Nat} {x : Binary64} : ¬ Inside k (.float x) (.obj []) := by
  rintro (_ | _ | ⟨hv, -⟩)
  cases hv

/-- An empty payload writes no numbers. -/
theorem not_writes_empty {payload : Option Text} (h : payload.getD [] = []) {k : Nat}
    {n : NumberText} : ¬ Writes payload k n := by
  rintro ⟨raw, text, pairs, rfl, htext, hspells, -⟩
  obtain rfl : raw = [] := h
  obtain rfl : [] = text := Except.ok.inj htext
  obtain ⟨c, -, blanks, rest, -, hnil⟩ := hspells.begins
  exact absurd hnil (by simp)

/-- The numbers of an object that has been encoded are those of any text that writes it. -/
theorem inside_iff_writes {raw : Text} {args : Args} (h : Arguments.Encodes raw args) {k : Nat}
    {x : Binary64} : Inside k (.float x) (.obj args) ↔ ∃ n, Writes (some raw) k n
      ∧ n.isWhole = false ∧ Binary64.IsNearest n.negative n.magnitude x := by
  obtain ⟨text, pairs, htext, hspells, hdenotes⟩ := h
  constructor
  · intro hinside
    rw [hdenotes.eq_value, inside_float_iff] at hinside
    obtain ⟨n, hshows, hvalue⟩ := hinside
    exact ⟨n, ⟨raw, text, pairs, rfl, htext, hspells, hshows⟩,
      NumberText.value_eq_float_iff.mp hvalue⟩
  · rintro ⟨n, ⟨raw', text', pairs', hraw, htext', hspells', hshows⟩, hfloat⟩
    obtain rfl := Option.some.inj hraw
    obtain rfl := Except.ok.inj (htext.symm.trans htext')
    rw [hdenotes.eq_value, hspells.value_unique hspells', inside_float_iff]
    exact ⟨n, hshows, NumberText.value_eq_float_iff.mpr hfloat⟩

/-- In arguments without a report, the floating-point numbers are those nearest to the numerals that
have been written. -/
theorem inside_orNone_iff {payload : Option Text} (h : Arguments.diagnostic? payload = none)
    {k : Nat} {x : Binary64} : Inside k (.float x) (.obj (Arguments.orNone payload)) ↔
      ∃ n, Writes payload k n ∧ n.isWhole = false
        ∧ Binary64.IsNearest n.negative n.magnitude x := by
  by_cases hempty : payload.getD [] = []
  · have hargs : Arguments.orNone payload = [] := by
      match payload, hempty with
      | none, _ => rfl
      | some [], _ => rfl
    rw [hargs]
    constructor
    · exact fun h => absurd h not_inside_nil
    · rintro ⟨n, hwrites, -⟩
      exact absurd hwrites (not_writes_empty hempty)
  · obtain ⟨raw, rfl⟩ : ∃ raw, payload = some raw := by
      cases payload with
      | none => exact absurd rfl hempty
      | some raw => exact ⟨raw, rfl⟩
    cases hdecode : Arguments.decode (some raw) with
    | error fault =>
      rw [Arguments.diagnostic?, hdecode] at h
      cases h
    | ok args =>
      rw [Arguments.orNone, hdecode]
      exact inside_iff_writes (Arguments.encodes_of_decode hempty hdecode)

/-- A payload that is spelled as an object within the limits is not reported. -/
theorem diagnostic?_of_spells {raw text : Text} {pairs : List (Text × Written)}
    (htext : Percent.decode raw = .ok text) (hspells : SpellsElement text (.obj pairs))
    (hlevels : (Written.obj pairs).levels ≤ 100)
    (hdigits : (Written.obj pairs).integerDigits ≤ 4300) :
    Arguments.diagnostic? (some raw) = none := by
  by_cases hraw : raw = []
  · rw [hraw]
    rfl
  · have hdepth : (100 : Nat) ≤ strict.depth := by decide
    have hdecode := Arguments.decode_of_spells hraw htext hspells (denotes_value (.obj pairs))
      (hlevels.trans hdepth) hdigits
    rw [Arguments.diagnostic?, hdecode]

/-- **The numbers in the arguments of a payload.** -/
theorem numbersOf (payload : Option Text) :
    NumbersOf payload (Arguments.orNone payload) (Arguments.diagnostic? payload).toList := by
  have haccepted : ∀ raw text pairs, payload = some raw → Percent.decode raw = .ok text →
      SpellsElement text (.obj pairs) → (Written.obj pairs).levels ≤ 100 →
      (Written.obj pairs).integerDigits ≤ 4300 →
        (Arguments.diagnostic? payload).toList = [] := by
    rintro raw text pairs rfl htext hspells hlevels hdigits
    rw [diagnostic?_of_spells htext hspells hlevels hdigits]
    rfl
  cases hreport : Arguments.diagnostic? payload with
  | some d =>
    rw [hreport] at haccepted
    rw [Arguments.orNone_of_reported hreport]
    refine ⟨.inr ⟨⟨d, rfl⟩, rfl⟩, haccepted, nofun, ?_, ?_⟩
    · exact fun k x h => absurd h not_inside_nil
    · intro k
      constructor
      · rintro ⟨x, h, -⟩
        exact absurd h not_inside_nil
      · rintro ⟨⟨⟩, -⟩
  | none =>
    rw [hreport] at haccepted
    refine ⟨.inl rfl, haccepted, fun _ k x => inside_orNone_iff hreport, ?_, ?_⟩
    · intro k x h
      obtain ⟨n, -, -, hnearest⟩ := (inside_orNone_iff hreport).mp h
      exact hnearest.isNaN_eq_false
    · intro k
      constructor
      · rintro ⟨x, h, hx⟩
        obtain ⟨n, hwrites, hwhole, hnearest⟩ := (inside_orNone_iff hreport).mp h
        exact ⟨rfl, n, hwrites, hwhole, hnearest.infinite.mp hx⟩
      · rintro ⟨-, n, hwrites, hwhole, hlarge⟩
        have hnearest := n.toBinary64_isNearest
        exact ⟨n.toBinary64, (inside_orNone_iff hreport).mpr ⟨n, hwrites, hwhole, hnearest⟩,
          hnearest.infinite.mpr hlarge⟩

/-! ## Fragments -/

/-- A token that has been found, its arguments, and the reports about them. -/
structure Found where
  token : Token
  args : Args
  reports : List Diagnostic

/-- The command of a token with its arguments. -/
def Found.command (found : Found) : Command :=
  ⟨found.token.method, found.token.name, found.args⟩

/-- What is found of a token. -/
def Found.of (token : Token) : Found :=
  ⟨token, Arguments.orNone token.arguments, (Arguments.diagnostic? token.arguments).toList⟩

/-- What is found in a fragment: what it is parsed to, and what its numbers are. -/
structure ParsedNumbers (methods : List Text) (raw : Option Text) (found : List Found) : Prop where
  /-- Whatever the sink does, nothing else is returned. -/
  returned : ∀ {σ : Type} (sink : Option (Sink σ)) (s : σ) (cs : List Command),
    (parse methods sink raw s).result = .ok cs → cs = found.map Found.command
  /-- The reports are those of the tokens, in their order. A missing fragment is an empty one. -/
  gives : Gives methods (raw.getD []) (found.map Found.command) (found.flatMap Found.reports)
  /-- All tokens with a known method are found, and no others. -/
  known : ∀ token, (∃ f ∈ found, f.token = token)
    ↔ ∃ t ∈ tokens (raw.getD []), token.Spells t ∧ token.method ∈ methods
  numbers : ∀ f ∈ found, NumbersOf f.token.arguments f.args f.reports

/-- The commands are those of the tokens with known methods, in order. -/
theorem commands_eq_map (methods : List Text) (raw : Option Text) : commands methods raw
    = (((tokens (raw.getD [])).filterMap (known? methods)).map Found.of).map Found.command := by
  rw [List.map_map, List.map_filterMap]
  rfl

/-- The reports on a fragment are those on its tokens, one after the other. -/
theorem diagnostics_eq_flatMap (methods : List Text) (raw : Option Text) : diagnostics methods raw
    = (((tokens (raw.getD [])).filterMap (known? methods)).map Found.of).flatMap
        Found.reports := by
  have hreports : ∀ found : List Token, (found.map Found.of).flatMap Found.reports
      = found.filterMap fun token => Arguments.diagnostic? token.arguments := by
    intro found
    rw [List.flatMap_map, List.filterMap_eq_flatMap_toList]
    rfl
  rw [hreports, List.filterMap_filterMap]
  rfl

/-- **The numbers in the arguments of a fragment** are those that its payloads write, the infinite
ones among them. -/
theorem parse_numbers (methods : List Text) (raw : Option Text) :
    ∃ found, ParsedNumbers methods raw found := by
  refine ⟨((tokens (raw.getD [])).filterMap (known? methods)).map Found.of, ?_, ?_, ?_, ?_⟩
  · intro σ sink s cs h
    rw [← commands_eq_map]
    exact eq_commands_of_parse h
  · rw [← commands_eq_map, ← diagnostics_eq_flatMap]
    exact gives methods (raw.getD [])
  · intro token
    constructor
    · rintro ⟨f, hf, rfl⟩
      obtain ⟨token, htoken, rfl⟩ := List.mem_map.mp hf
      obtain ⟨t, ht, hknown⟩ := List.mem_filterMap.mp htoken
      exact ⟨t, ht, known?_eq_some_iff.mp hknown⟩
    · rintro ⟨t, ht, hknown⟩
      have htoken : token ∈ (tokens (raw.getD [])).filterMap (known? methods) :=
        List.mem_filterMap.mpr ⟨t, ht, known?_eq_some_iff.mpr hknown⟩
      exact ⟨Found.of token, List.mem_map_of_mem htoken, rfl⟩
  · intro f hf
    obtain ⟨token, -, rfl⟩ := List.mem_map.mp hf
    exact numbersOf token.arguments

/-- A numeral that is too large gets through. -/
example : ((commands ["e:run"] (some "#e:run:x?%7B%22a%22%3A1e400%7D")).map fun c =>
    c.args.map fun m => m.2.magnitude?) = [[some (.infinite false)]] := by
  decide +kernel

end Deeplink.Fragment

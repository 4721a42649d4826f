import Deeplink.Proofs.Host.Noted
import Deeplink.Proofs.Settings.Methods

/-!
# Methods that fragments can address

Settings check that a method has one colon. Fragments have two more marks: an ampersand ends a
token, and a question mark ends the front of one. A name has to pass through the wire grammar
(specification, 6), which has marks of its own.

- `Host.IsAddressable`: neither of these marks is in the method.
- `Host.parse_plain`: then a name behind the method is one command.
- `Host.not_addressed`: otherwise no fragment has a command with that method.
- `Host.Addressed`, `Host.methods_addressed`: so much of the methods that settings name.
-/

namespace Deeplink

namespace Host

open Fragment

variable {η μ : Type} {methods : List Text} {m n : Text}

/-- A method without the marks that end a token or the front of one. -/
def IsAddressable (m : Text) : Prop := .char '&' ∉ m ∧ .char '?' ∉ m

instance (m : Text) : Decidable (IsAddressable m) := inferInstanceAs (Decidable (_ ∧ _))

/-- A name that a token can have. -/
def IsPlain (n : Text) : Prop := .char ':' ∉ n ∧ .char '?' ∉ n ∧ .char '&' ∉ n

/-- The fragment of one token without arguments. -/
def address (m n : Text) : Text := .char '#' :: (m ++ .char ':' :: n)

/-! ## Addresses -/

/-- A name behind a method spells one token. -/
theorem exists_token (hmethod : Settings.IsMethod m) (hm : IsAddressable m) (hn : IsPlain n) :
    ∃ token : Token, token.Spells (m ++ .char ':' :: n)
      ∧ token.method = m ∧ token.name = n ∧ token.arguments = none := by
  obtain ⟨namespaceName, qualifier, rfl, -, -, hcolon, hcolon'⟩ := hmethod
  have hmark : .char '?' ∉ namespaceName ∧ .char '?' ∉ qualifier := by
    have h := hm.2
    rw [List.mem_append, List.mem_cons, not_or, not_or] at h
    exact ⟨h.1, h.2.2⟩
  refine ⟨⟨namespaceName, qualifier, n, none⟩, ?_, rfl, rfl, rfl⟩
  refine ⟨⟨hcolon, hmark.1⟩, ⟨hcolon', hmark.2⟩, ⟨hn.1, hn.2.1⟩, ?_⟩
  simp [Token.front, Text.behind]

/-- It is the whole of the fragment. -/
theorem tokens_address (hm : IsAddressable m) (hn : IsPlain n) :
    tokens (address m n) = [m ++ .char ':' :: n] := by
  have hampersand : .char '&' ∉ m ++ .char ':' :: n := by
    rw [List.mem_append, List.mem_cons, not_or, not_or]
    exact ⟨hm.1, by decide, hn.2.2⟩
  refine (splits_iff.mp ⟨_, .inl rfl, List.cons_ne_nil _ _, ?_, ?_⟩).symm
  · exact fun t ht => List.mem_singleton.mp ht ▸ hampersand
  · simp [Text.join]

/-- **A name behind an addressable method is one command**, and there is nothing to report. -/
theorem parse_plain (hmethod : Settings.IsMethod m) (hm : IsAddressable m) (hn : IsPlain n)
    (hknown : m ∈ methods) {σ : Type} (sink : Option (Sink σ)) (s : σ) :
    parse methods sink (some (address m n)) s = ⟨.ok [⟨m, n, []⟩], s, []⟩ := by
  obtain ⟨token, hspells, rfl, rfl, hnone⟩ := exists_token hmethod hm hn
  have htoken : known? methods (token.method ++ .char ':' :: token.name) = some token :=
    known?_eq_some_iff.mpr ⟨hspells, hknown⟩
  have htokens := tokens_address hm hn
  have hreports : diagnostics methods (some (address token.method token.name)) = [] := by
    have hreport : diagnostic? methods (token.method ++ .char ':' :: token.name) = none := by
      rw [diagnostic?, htoken, Option.bind_some, hnone]
      rfl
    rw [diagnostics, Option.getD_some, htokens, List.filterMap_cons, hreport, List.filterMap_nil]
  have hcommands : commands methods (some (address token.method token.name))
      = [⟨token.method, token.name, []⟩] := by
    have hcommand : command? methods (token.method ++ .char ':' :: token.name)
        = some ⟨token.method, token.name, []⟩ := by
      rw [command?, htoken, Option.map_some, hnone]
      rfl
    rw [commands, Option.getD_some, htokens, List.filterMap_cons, hcommand, List.filterMap_nil]
  rw [parse_quiet hreports, hcommands]

/-- **A method with a mark in it is never addressed**, by no fragment. -/
theorem not_addressed (hm : ¬ IsAddressable m) {raw : Option Text} {c : Command}
    (hc : c ∈ commands methods raw) : c.method ≠ m := by
  rintro rfl
  obtain ⟨t, ht, token, hspells, -, rfl⟩ := exists_token_of_mem (h := raw.getD []) hc
  obtain ⟨hampersand, hquestion⟩ := marks_not_mem_front ht hspells
  rw [token.front_eq_method, List.mem_append, not_or] at hampersand hquestion
  exact hm ⟨hampersand.1, hquestion.1⟩

/-! ## Methods in settings -/

/-- How fragments address a method of the standard table. -/
structure Addressed (call : Call η μ) (s : Settings) (m : Text) : Prop where
  /-- The method has a family. -/
  known : m ∈ (standardTable call s).methods
  /-- Names behind the method are commands without arguments, whatever the sink, if the method has
  no mark in it, -/
  single : (∀ n, IsPlain n → ∀ {σ : Type} (sink : Option (Sink σ)) (st : σ),
    parse (standardTable call s).methods sink (some (address m n)) st
      = ⟨.ok [⟨m, n, []⟩], st, []⟩) ↔ IsAddressable m
  /-- and if it has one, the family cannot be reached. -/
  unreachable : ¬ IsAddressable m → ∀ {σ : Type} (sink : Option (Sink σ)) (raw : Option Text)
    (st : σ) (cs : List Command),
    (parse (standardTable call s).methods sink raw st).result = .ok cs → ∀ c ∈ cs, c.method ≠ m

theorem mem_methods_set {ρ : Type} {method : Text} {family : Family ρ} {table : Table ρ} :
    m ∈ (Table.set method family table).methods ↔ m = method ∨ m ∈ table.methods := by
  rw [Table.methods, Table.set, Keyed.map_fst_set]
  split
  next hmem =>
    rw [Table.methods]
    exact ⟨.inr, fun h => h.elim (· ▸ hmem) id⟩
  next => rw [List.mem_append, List.mem_singleton, or_comm, Table.methods]

theorem mem_standard_methods {call : Call η μ} {s : Settings} :
    m ∈ (standardTable call s).methods ↔ m = s.runMethod ∨ m = s.routeMethod := by
  rw [standardTable, mem_methods_set, or_comm]
  exact or_congr_left List.mem_singleton

/-- **Which methods fragments can address**: of those that settings name, exactly those without an
ampersand and a question mark. The others are accepted, too, and their family is never run. -/
theorem methods_addressed (call : Call η μ) {arguments : List (Text × Json)} {env : Environment}
    {s : Settings} (h : Settings.build arguments env = .ok s)
    (hm : m = s.runMethod ∨ m = s.routeMethod) : Addressed call s m := by
  have hknown : m ∈ (standardTable call s).methods := mem_standard_methods.mpr hm
  have hmethod : Settings.IsMethod m := by
    obtain ⟨hrun, hroute⟩ := Settings.build_methods h
    rcases hm with rfl | rfl
    · exact hrun
    · exact hroute
  have hunreachable : ¬ IsAddressable m → ∀ {σ : Type} (sink : Option (Sink σ))
      (raw : Option Text) (st : σ) (cs : List Command),
      (parse (standardTable call s).methods sink raw st).result = .ok cs →
      ∀ c ∈ cs, c.method ≠ m := by
    intro hmarks σ sink raw st cs hparse c hc
    rw [eq_commands_of_parse hparse] at hc
    exact not_addressed hmarks hc
  refine ⟨hknown, ⟨fun hsingle => ?_, fun hmarks n hn σ sink st => ?_⟩, hunreachable⟩
  · by_contra hmarks
    have hempty : IsPlain [] := ⟨List.not_mem_nil, List.not_mem_nil, List.not_mem_nil⟩
    have hparse := hsingle [] hempty (none : Option (Sink Unit)) ()
    exact hunreachable hmarks none _ () _ (by rw [hparse]) _ (List.mem_singleton_self _) rfl
  · exact parse_plain hmethod hmarks hn hknown sink st

/-- Settings whose run method has an ampersand in it. Both of its parts are there. -/
def marked : Settings := { Settings.defaults with runMethod := "a&b:c" }

/-- They are accepted, and the fragment with that method has no command. -/
theorem marked_unreachable : Settings.build [] (Settings.named "a&b:c" "e:route") = .ok marked
    ∧ Addressed idle marked "a&b:c" ∧ ¬ IsAddressable "a&b:c"
    ∧ Addressed idle marked "e:route" ∧ IsAddressable "e:route"
    ∧ parse (standardTable idle marked).methods none (some (address "a&b:c" "n")) ()
      = ⟨.ok [], (), []⟩ := by
  have hbuild : Settings.build [] (Settings.named "a&b:c" "e:route") = .ok marked :=
    Settings.build_named (Settings.hasMethodShape_iff.mp (by decide))
      (Settings.hasMethodShape_iff.mp (by decide))
  exact ⟨hbuild, methods_addressed idle hbuild (.inl rfl), by decide,
    methods_addressed idle hbuild (.inr rfl), by decide, rfl⟩

end Host

end Deeplink

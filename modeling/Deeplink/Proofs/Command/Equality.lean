import Deeplink.Proofs.Fragment.Commands
import Deeplink.Proofs.Json.Equality
import Mathlib.Logic.Relation

/-!
# Equality of commands

Commands that come from tokens are compared as data, and their equality is an equivalence that the
hash respects. Commands are values (specification, 3).

- `Command.Parsed`: a token has given the command.
- `Command.Parsed.regular`: its arguments are regular.
- `Command.same_iff`: two such commands are equal exactly if their methods and names are, and their
  arguments are the same values.
- `Command.Lawful`, `Command.same_lawful`: the laws of equality, for three such commands.
-/

namespace Deeplink

open Json

/-- The arguments of a text are regular. -/
theorem Arguments.decode_regular {raw : Option Text} {args : Args} (h : decode raw = .ok args) :
    Regular (.obj args) := by
  rcases eq_nil_or_read h with rfl | ⟨text, hread⟩
  · exact regular_obj.mpr ⟨List.nodup_nil, nofun⟩
  · exact read_regular hread

theorem Arguments.orNone_regular (raw : Option Text) : Regular (.obj (orNone raw)) := by
  unfold orNone
  cases h : decode raw with
  | ok args => exact decode_regular h
  | error fault => exact regular_obj.mpr ⟨List.nodup_nil, nofun⟩

namespace Command

variable {a b c : Command}

/-- A token has given the command: with some methods, a sink or none, and a state of the sink. -/
def Parsed (c : Command) : Prop :=
  ∃ (σ : Type) (methods : List Text) (sink : Option (Sink σ)) (t : Text) (s : σ),
    (Fragment.parseToken methods sink t s).result = .ok (some c)

/-- The sink does not matter for it. -/
theorem parsed_iff : Parsed c ↔ ∃ methods t, Fragment.command? methods t = some c := by
  constructor
  · rintro ⟨σ, methods, sink, t, s, h⟩
    refine ⟨methods, t, ?_⟩
    rw [Fragment.parseToken_eq] at h
    cases hr : (Fragment.reportAll sink (Fragment.diagnostic? methods t).toList s).result with
    | error e =>
      rw [Act.bind_of_error hr] at h
      cases h
    | ok u =>
      rw [Act.bind_of_ok hr] at h
      exact Except.ok.inj h
  · rintro ⟨methods, t, h⟩
    have hreports := @Fragment.reportAll_of_ordinary Unit none nofun
      (Fragment.diagnostic? methods t).toList ()
    refine ⟨Unit, methods, none, t, (), ?_⟩
    rw [Fragment.parseToken_eq, Act.bind_of_ok hreports, h]
    rfl

theorem Parsed.regular (h : Parsed c) : Regular (.obj c.args) := by
  obtain ⟨methods, t, h⟩ := parsed_iff.mp h
  obtain ⟨token, -, rfl⟩ := Option.map_eq_some_iff.mp h
  exact Arguments.orNone_regular token.arguments

/-! ## Equality -/

/-- **Commands that have been parsed are compared as data.** -/
theorem same_iff (ha : Regular (.obj a.args)) (hb : Regular (.obj b.args)) :
    a.same b = true ↔ a.method = b.method ∧ a.name = b.name
      ∧ Same (.obj a.args) (.obj b.args) := by
  rw [same, Bool.and_eq_true, Bool.and_eq_true, decide_eq_true_iff, decide_eq_true_iff,
    agrees_iff_same ha hb, and_assoc]

/-- Equality is an equivalence on commands with regular arguments. -/
theorem same_refl (ha : Regular (.obj a.args)) : a.same a = true :=
  (same_iff ha ha).mpr ⟨rfl, rfl, ha.same_self⟩

theorem same_comm (ha : Regular (.obj a.args)) (hb : Regular (.obj b.args)) :
    a.same b = b.same a := by
  rw [Bool.eq_iff_iff, same_iff ha hb, same_iff hb ha]
  constructor
  · exact fun ⟨hmethod, hname, hargs⟩ => ⟨hmethod.symm, hname.symm, hargs.symm⟩
  · exact fun ⟨hmethod, hname, hargs⟩ => ⟨hmethod.symm, hname.symm, hargs.symm⟩

theorem same_trans (ha : Regular (.obj a.args)) (hb : Regular (.obj b.args))
    (hc : Regular (.obj c.args)) (hab : a.same b = true) (hbc : b.same c = true) :
    a.same c = true := by
  obtain ⟨hmethod, hname, hargs⟩ := (same_iff ha hb).mp hab
  obtain ⟨hmethod', hname', hargs'⟩ := (same_iff hb hc).mp hbc
  exact (same_iff ha hc).mpr
    ⟨hmethod.trans hmethod', hname.trans hname', hargs.trans hargs'⟩

/-- Equal commands are equal to the same commands. -/
theorem same_congr (ha : Regular (.obj a.args)) (hb : Regular (.obj b.args))
    (hc : Regular (.obj c.args)) (hab : a.same b = true) : b.same c = a.same c := by
  rw [Bool.eq_iff_iff]
  constructor
  · exact same_trans ha hb hc hab
  · exact same_trans hb ha hc ((same_comm hb ha).trans hab)

/-- Members come in another order, once and again. -/
theorem reorder (ha : Regular (.obj a.args)) {v : Json}
    (h : Relation.ReflTransGen Reorders (.obj a.args) v) : Regular v ∧ Same (.obj a.args) v := by
  induction h with
  | refl => exact ⟨ha, ha.same_self⟩
  | tail hbefore hlast ih =>
    obtain ⟨hregular, hsame⟩ := ih
    exact ⟨hregular.of_reorders hlast, hsame.trans (hregular.same_of_reorders hlast)⟩

/-! ## Laws -/

/-- What equality is for three commands. -/
structure Lawful (a b c : Command) : Prop where
  /-- Methods and names are texts. Arguments are values: numbers are equal as rational numbers,
  lists place by place, and objects as maps from names to values. -/
  structural : a.same b = true ↔ a.method = b.method ∧ a.name = b.name
    ∧ Same (.obj a.args) (.obj b.args)
  /-- What is equal to a number is the same number, of whatever kind. -/
  numbers : ∀ {v w : Json} {q : ℚ}, IsNumber v q → (Same v w ↔ IsNumber w q)
  /-- Integers and floating-point numbers are compared exactly. Zeros have one value. -/
  whole : ∀ (n : Int) (x : Binary64), Same (.int n) (.float x) ↔ x.isFinite = true ∧ x.value = n
  /-- Booleans are one and zero. -/
  truth : ∀ (n : Int) (p : Bool), Same (.int n) (.bool p) ↔ n = if p then 1 else 0
  refl : a.same a = true
  symm : a.same b = b.same a
  trans : a.same b = true → b.same c = true → a.same c = true
  /-- Objects inside the arguments, however deep, may have their members in another order. -/
  reordered : ∀ args, Relation.ReflTransGen Reorders (.obj a.args) (.obj args) →
    a.same ⟨a.method, a.name, args⟩ = true ∧ same ⟨a.method, a.name, args⟩ b = a.same b
  /-- Equal commands have one hash. -/
  hash : a.same b = true → a.hashKey = b.hashKey

/-- **The equality of commands is lawful**: it is an equivalence of commands that come from tokens,
it compares their arguments as data, and the hash respects it. -/
theorem same_lawful (ha : Parsed a) (hb : Parsed b) (hc : Parsed c) : Lawful a b c where
  structural := same_iff ha.regular hb.regular
  numbers := same_iff_isNumber
  whole n x := (same_iff_isNumber (.int n)).trans isNumber_float_iff
  truth n p := by
    rw [same_iff_isNumber (.int n), isNumber_bool_iff, eq_comm]
    cases p with
    | false => exact Int.cast_eq_zero
    | true => exact Int.cast_eq_one
  refl := same_refl ha.regular
  symm := same_comm ha.regular hb.regular
  trans := same_trans ha.regular hb.regular hc.regular
  reordered args h := by
    obtain ⟨hregular, hargs⟩ := reorder ha.regular h
    have hsame : a.same ⟨a.method, a.name, args⟩ = true :=
      (same_iff ha.regular hregular).mpr ⟨rfl, rfl, hargs⟩
    exact ⟨hsame, same_congr ha.regular hregular hb.regular hsame⟩
  hash h := by
    obtain ⟨hmethod, hname, -⟩ := (same_iff ha.regular hb.regular).mp h
    rw [hashKey, hashKey, hmethod, hname]

/-- Three tokens for one command: there are numbers of all kinds, and members in all orders. -/
def spelledInteger : Text :=
  "e:run:x?%7B%22a%22:1,%22b%22:[%7B%22c%22:0,%22d%22:null%7D]%7D"

def spelledFloat : Text :=
  "e:run:x?%7B%22b%22:[%7B%22d%22:null,%22c%22:-0.0%7D],%22a%22:1.0%7D"

def spelledBoolean : Text :=
  "e:run:x?%7B%22b%22:[%7B%22c%22:false,%22d%22:null%7D],%22a%22:true%7D"

theorem same_spelled : ∃ a b c, Parsed a ∧ Parsed b ∧ Parsed c ∧ Lawful a b c
    ∧ a.args.map Prod.fst = ["a", "b"] ∧ b.args.map Prod.fst = ["b", "a"]
    ∧ a.same b = true ∧ b.same c = true ∧ a.same c = true := by
  obtain ⟨a, ha⟩ : ∃ a, Fragment.command? ["e:run"] spelledInteger = some a :=
    Option.isSome_iff_exists.mp (by decide +kernel)
  obtain ⟨b, hb⟩ : ∃ b, Fragment.command? ["e:run"] spelledFloat = some b :=
    Option.isSome_iff_exists.mp (by decide +kernel)
  obtain ⟨c, hc⟩ : ∃ c, Fragment.command? ["e:run"] spelledBoolean = some c :=
    Option.isSome_iff_exists.mp (by decide +kernel)
  have hparsed : Parsed a ∧ Parsed b ∧ Parsed c :=
    ⟨parsed_iff.mpr ⟨_, _, ha⟩, parsed_iff.mpr ⟨_, _, hb⟩, parsed_iff.mpr ⟨_, _, hc⟩⟩
  have hlawful := same_lawful hparsed.1 hparsed.2.1 hparsed.2.2
  have hab : (Fragment.command? ["e:run"] spelledInteger).any (fun a =>
      (Fragment.command? ["e:run"] spelledFloat).any a.same) = true := by decide +kernel
  have hbc : (Fragment.command? ["e:run"] spelledFloat).any (fun b =>
      (Fragment.command? ["e:run"] spelledBoolean).any b.same) = true := by decide +kernel
  have horder : (Fragment.command? ["e:run"] spelledInteger).map (·.args.map Prod.fst)
      = some (["a", "b"] : List Text) := by decide +kernel
  have horder' : (Fragment.command? ["e:run"] spelledFloat).map (·.args.map Prod.fst)
      = some (["b", "a"] : List Text) := by decide +kernel
  rw [ha] at hab horder
  rw [hb] at hab hbc horder'
  rw [hc] at hbc
  exact ⟨a, b, c, hparsed.1, hparsed.2.1, hparsed.2.2, hlawful, Option.some.inj horder,
    Option.some.inj horder', hab, hbc, hlawful.trans hab hbc⟩

end Command

end Deeplink

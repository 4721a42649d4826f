import Deeplink.Command.Sendable
import Deeplink.Proofs.Json.Carried
import Deeplink.Proofs.Json.Members

/-!
# Commands that are sent as they are

- `Command.IsCarried`: no surrogates and no numbers that are not finite in a command, and values
  that do not lie too deep.
- `Command.isCarried_iff`: these are the commands that a lawful carrier can send and leaves as they
  are.
- `Command.sentList_eq_ok_iff`: a list of commands is sent as it is if each of them is.
-/

namespace Deeplink

/-! ## Commands -/

namespace Command

theorem map_eq_self_iff {α : Type} {f : α → α} {xs : List α} :
    xs.map f = xs ↔ ∀ x ∈ xs, f x = x := by
  have h := List.map_inj_left (l := xs) (f := f) (g := id)
  rwa [List.map_id] at h

/-- All that a command holds is sent as it is. -/
structure IsCarried (c : Command) : Prop where
  method : c.method.isScalar = true
  name : c.name.isScalar = true
  args : ∀ m ∈ c.args, m.1.isScalar = true ∧ m.2.IsCarried Json.deepest

section Carriers

variable {k : Json.Carrier}

/-- Only the values of arguments can have faults, and not their names. -/
theorem argumentsFault?_eq_none_iff (args : Args) :
    argumentsFault? k args = none ↔ ∀ m ∈ args, k.valueFault? m.2 = none :=
  List.findSome?_eq_none_iff

variable (hk : k.Lawful)

include hk

/-- A lawful carrier refuses a command only for surrogates in its method or name, or for a value. -/
theorem sendFault?_eq_none_iff (c : Command) :
    c.sendFault? k = none ↔ c.method.isScalar = true ∧ c.name.isScalar = true
      ∧ ∀ m ∈ c.args, k.valueFault? m.2 = none := by
  rw [sendFault?, Option.or_eq_none_iff, Option.or_eq_none_iff, hk.text, hk.text,
    argumentsFault?_eq_none_iff, and_assoc]

/-- Arguments with different names stay as they are if each name and each value does. A name with a
surrogate would have to come back, but no name that is sent has one. -/
theorem sendableArguments_eq_self_iff {args : Args} (h : (args.map Prod.fst).Nodup) :
    sendableArguments k args = args
      ↔ ∀ m ∈ args, m.1.isScalar = true ∧ k.value m.2 = m.2 := by
  have hvalues (hnames : ∀ m ∈ args, m.1.isScalar = true) :
      sendableArguments k args = args.map fun m => (m.1, k.value m.2) := by
    have hsame (m) (hm : m ∈ args) : (k.name m.1, k.value m.2) = (m.1, k.value m.2) :=
      Prod.ext (hk.name_eq_self m.1 (hnames m hm)) rfl
    rw [sendableArguments, List.map_congr_left hsame]
    refine Json.collect_eq_self ?_
    rw [List.map_map]
    exact h
  have hself : (args.map fun m => (m.1, k.value m.2)) = args ↔ ∀ m ∈ args, k.value m.2 = m.2 := by
    rw [map_eq_self_iff]
    exact forall₂_congr fun m _ => ⟨congrArg Prod.snd, fun hv => Prod.ext rfl hv⟩
  constructor
  · intro hargs
    -- a name of the arguments is one of those that are sent
    have hnames : ∀ m ∈ args, m.1.isScalar = true := by
      intro m hm
      have hmem : m.1 ∈ (sendableArguments k args).map Prod.fst := by
        rw [hargs]
        exact List.mem_map_of_mem hm
      rcases Json.mem_collectFrom hmem with hmem | hmem
      · cases hmem
      · obtain ⟨m', hm', hfst⟩ := List.mem_map.mp hmem
        obtain ⟨m'', -, rfl⟩ := List.mem_map.mp hm'
        rw [← hfst]
        exact hk.name_isScalar m''.1
    rw [hvalues hnames, hself] at hargs
    exact fun m hm => ⟨hnames m hm, hargs m hm⟩
  · intro hargs
    rw [hvalues fun m hm => (hargs m hm).1, hself]
    exact fun m hm => (hargs m hm).2

/-- **A command is carried** if it can be sent and is sent as it is. -/
theorem isCarried_iff {c : Command} (h : (c.args.map Prod.fst).Nodup) :
    c.IsCarried ↔ c.sendFault? k = none ∧ c.sendable k = c := by
  have hsendable : c.sendable k = c ↔ sendableArguments k c.args = c.args :=
    ⟨congrArg Command.args, fun hargs => by rw [sendable, hargs]⟩
  rw [hsendable, sendFault?_eq_none_iff hk, sendableArguments_eq_self_iff hk h]
  constructor
  · intro hc
    have hargs := fun m hm => (hk.value m.2).mp (hc.args m hm).2
    exact ⟨⟨hc.method, hc.name, fun m hm => (hargs m hm).1⟩,
      fun m hm => ⟨(hc.args m hm).1, (hargs m hm).2⟩⟩
  · rintro ⟨⟨hmethod, hname, hfault⟩, hargs⟩
    refine ⟨hmethod, hname, fun m hm => ⟨(hargs m hm).1, ?_⟩⟩
    exact (hk.value m.2).mpr ⟨hfault m hm, (hargs m hm).2⟩

end Carriers

/-! ## Lists -/

/-- What is sent of a command says what the command is. -/
theorem toJson_injective : Function.Injective toJson := by
  rintro ⟨method, name, args⟩ ⟨method', name', args'⟩ h
  simp only [toJson, Json.obj.injEq, List.cons.injEq, Prod.mk.injEq, Json.str.injEq, true_and,
    and_true] at h
  obtain ⟨rfl, rfl, rfl⟩ := h
  rfl

/-- What is sent of a list says which commands are in it. -/
theorem listToJson_injective : Function.Injective listToJson := by
  intro cs ds h
  simp only [listToJson, Json.obj.injEq, List.cons.injEq, Prod.mk.injEq, Json.arr.injEq, true_and,
    and_true] at h
  exact List.map_injective_iff.mpr toJson_injective h

/-- **A list of commands is sent as it is** if each of them is. -/
theorem sentList_eq_ok_iff {k : Json.Carrier} (hk : k.Lawful) {cs : List Command}
    (h : ∀ c ∈ cs, (c.args.map Prod.fst).Nodup) :
    sentList k cs = .ok (listToJson cs) ↔ ∀ c ∈ cs, c.IsCarried := by
  have hcarried : (∀ c ∈ cs, c.IsCarried)
      ↔ (∀ c ∈ cs, c.sendFault? k = none) ∧ cs.map (sendable k) = cs := by
    rw [map_eq_self_iff, ← forall₂_and]
    exact forall₂_congr fun c hc => isCarried_iff hk (h c hc)
  rw [hcarried, ← List.findSome?_eq_none_iff, sentList]
  cases cs.findSome? (sendFault? k) with
  | some fault => exact ⟨nofun, fun h => nomatch h.1⟩
  | none =>
    refine ⟨fun hsent => ⟨rfl, listToJson_injective (Except.ok.inj hsent)⟩, fun hcs => ?_⟩
    rw [hcs.2]

end Command

end Deeplink

import Deeplink.Json.Sendable
import Deeplink.Proofs.Text.Scalar

/-!
# Values that are sent as they are

- `Json.Inside`: a value lies inside another one, so many levels deep.
- `Json.IsClean`, `Json.IsCarried`: no surrogates and no numbers that are not finite, anywhere in a
  value that does not lie too deep.
- `Json.isCarried_iff`: these are the values that can be sent and that sending leaves as they are.
- `Json.Carrier.Lawful`: what commands that are sent rest on; `Json.Carrier.standard_lawful` says
  that the standard carrier is lawful.
-/

namespace Deeplink.Json

/-! ## Values inside each other -/

/-- The value `w` lies inside a value, `k` levels deep. -/
inductive Inside : Nat → Json → Json → Prop where
  | self (v : Json) : Inside 0 v v
  | item {k : Nat} {w v : Json} {items : List Json} (hv : v ∈ items) (h : Inside k w v) :
      Inside (k + 1) w (.arr items)
  | member {k : Nat} {w v : Json} {key : Text} {members : List (Text × Json)}
      (hv : (key, v) ∈ members) (h : Inside k w v) : Inside (k + 1) w (.obj members)

/-- What a value holds by itself can be sent: text without surrogates, finite numbers. -/
def IsClean : Json → Prop
  | .str t => t.isScalar = true
  | .float x => x.isFinite = true
  | .obj members => ∀ m ∈ members, m.1.isScalar = true
  | _ => True

/-- Everything inside a value is clean, and less than `room` levels deep. -/
def IsCarried (room : Nat) (v : Json) : Prop := ∀ k w, Inside k w v → k < room ∧ w.IsClean

section Carried

variable {room : Nat}

/-- Without room not even the value itself is carried. -/
theorem not_isCarried_zero (v : Json) : ¬ IsCarried 0 v := by
  intro h
  exact absurd (h 0 v (.self v)).1 (Nat.lt_irrefl 0)

/-- A value that is no container only has to be clean. -/
theorem isCarried_of_leaf (v : Json) (harr : ∀ items, v ≠ .arr items)
    (hobj : ∀ members, v ≠ .obj members) : IsCarried (room + 1) v ↔ v.IsClean := by
  constructor
  · exact fun h => (h 0 v (.self v)).2
  · intro h k w hw
    cases hw with
    | self => exact ⟨Nat.succ_pos room, h⟩
    | item _ _ => exact absurd rfl (harr _)
    | member _ _ => exact absurd rfl (hobj _)

/-- An array is carried if its items are, with one level less. -/
theorem isCarried_arr {items : List Json} :
    IsCarried (room + 1) (.arr items) ↔ ∀ v ∈ items, IsCarried room v := by
  constructor
  · intro h v hv k w hw
    obtain ⟨hk, hclean⟩ := h (k + 1) w (.item hv hw)
    exact ⟨Nat.lt_of_succ_lt_succ hk, hclean⟩
  · intro h k w hw
    cases hw with
    | self => exact ⟨Nat.succ_pos room, trivial⟩
    | item hv hw =>
      obtain ⟨hk, hclean⟩ := h _ hv _ _ hw
      exact ⟨Nat.succ_lt_succ hk, hclean⟩

/-- An object is carried if its names are clean and its values are carried, with one level less. -/
theorem isCarried_obj {members : List (Text × Json)} :
    IsCarried (room + 1) (.obj members)
      ↔ ∀ m ∈ members, m.1.isScalar = true ∧ IsCarried room m.2 := by
  constructor
  · intro h m hm
    obtain ⟨key, v⟩ := m
    refine ⟨(h 0 _ (.self _)).2 _ hm, fun k w hw => ?_⟩
    obtain ⟨hk, hclean⟩ := h (k + 1) w (.member hm hw)
    exact ⟨Nat.lt_of_succ_lt_succ hk, hclean⟩
  · intro h k w hw
    cases hw with
    | self => exact ⟨Nat.succ_pos room, fun m hm => (h m hm).1⟩
    | member hv hw =>
      obtain ⟨hk, hclean⟩ := (h _ hv).2 _ _ hw
      exact ⟨Nat.succ_lt_succ hk, hclean⟩

end Carried

/-! ## Sending -/

/-- Only surrogates are faults of a text. -/
theorem textFault?_eq_none_iff (t : Text) : textFault? t = none ↔ t.isScalar = true := by
  rw [textFault?, Option.map_eq_none_iff, Utf8.firstSurrogates?_eq_none_iff]

section Lists

variable {room : Nat}

/-- A list of items has no fault if none of them has one. -/
theorem itemsFault?_eq_none_iff (items : List Json) :
    itemsFault? room items = none ↔ ∀ v ∈ items, sendFault? room v = none := by
  induction items with
  | nil => exact ⟨fun _ _ h => (nomatch h), fun _ => rfl⟩
  | cons v rest ih => rw [itemsFault?, Option.or_eq_none_iff, ih, List.forall_mem_cons]

/-- Members have no fault if neither their names nor their values have one. -/
theorem membersFault?_eq_none_iff (members : List (Text × Json)) :
    membersFault? room members = none
      ↔ ∀ m ∈ members, m.1.isScalar = true ∧ sendFault? room m.2 = none := by
  induction members with
  | nil => exact ⟨fun _ _ h => (nomatch h), fun _ => rfl⟩
  | cons m rest ih =>
    obtain ⟨k, v⟩ := m
    rw [membersFault?, Option.or_eq_none_iff, Option.or_eq_none_iff, textFault?_eq_none_iff, ih,
      List.forall_mem_cons]

/-- Items are sent as they are if each one is. -/
theorem sendableItems_eq_self_iff (items : List Json) :
    sendableItems items = items ↔ ∀ v ∈ items, sendable v = v := by
  induction items with
  | nil => exact ⟨fun _ _ h => (nomatch h), fun _ => rfl⟩
  | cons v rest ih => rw [sendableItems, List.cons.injEq, ih, List.forall_mem_cons]

/-- Members are sent as they are if their values are; their names stay as they are in any case. -/
theorem sendableMembers_eq_self_iff (members : List (Text × Json)) :
    sendableMembers members = members ↔ ∀ m ∈ members, sendable m.2 = m.2 := by
  induction members with
  | nil => exact ⟨fun _ _ h => (nomatch h), fun _ => rfl⟩
  | cons m rest ih =>
    obtain ⟨k, v⟩ := m
    rw [sendableMembers, List.cons.injEq, Prod.mk.injEq, ih, List.forall_mem_cons]
    simp

end Lists

/-- **What is sent as it is**: values that are clean all the way down. The induction is on the room
that is left, which both the faults and the levels use up. -/
theorem isCarried_iff (room : Nat) (v : Json) :
    IsCarried room v ↔ sendFault? room v = none ∧ sendable v = v := by
  induction room generalizing v with
  | zero =>
    rw [sendFault?]
    exact ⟨fun h => absurd h (not_isCarried_zero v), fun h => nomatch h.1⟩
  | succ room ih =>
    cases v with
    | null =>
      exact (isCarried_of_leaf .null nofun nofun).trans ⟨fun _ => ⟨rfl, rfl⟩, fun _ => trivial⟩
    | bool b =>
      exact (isCarried_of_leaf (.bool b) nofun nofun).trans
        ⟨fun _ => ⟨rfl, rfl⟩, fun _ => trivial⟩
    | int n =>
      exact (isCarried_of_leaf (.int n) nofun nofun).trans
        ⟨fun _ => ⟨rfl, rfl⟩, fun _ => trivial⟩
    | float x =>
      have hsendable : sendable (.float x) = .float x ↔ x.isFinite = true := by
        rw [sendable]
        by_cases hx : x.isFinite = true
        · simp [hx]
        · simp [hx]
      exact (isCarried_of_leaf (.float x) nofun nofun).trans
        ⟨fun h => ⟨rfl, hsendable.mpr h⟩, fun h => hsendable.mp h.2⟩
    | str t =>
      have hfault := textFault?_eq_none_iff t
      exact (isCarried_of_leaf (.str t) nofun nofun).trans
        ⟨fun h => ⟨hfault.mpr h, rfl⟩, fun h => hfault.mp h.1⟩
    | arr items =>
      rw [isCarried_arr, sendFault?, itemsFault?_eq_none_iff, sendable, Json.arr.injEq,
        sendableItems_eq_self_iff]
      simp only [ih, forall_and]
    | obj members =>
      rw [isCarried_obj, sendFault?, membersFault?_eq_none_iff, sendable, Json.obj.injEq,
        sendableMembers_eq_self_iff]
      simp only [ih, forall_and, and_assoc]

end Deeplink.Json

namespace Deeplink.Text

/-- No surrogates are left. -/
theorem withoutSurrogates_isScalar (t : Text) : t.withoutSurrogates.isScalar = true := by
  induction t with
  | nil => rfl
  | cons c t ih =>
    rw [withoutSurrogates, List.flatMap_cons, isScalar_append, Bool.and_eq_true]
    refine ⟨?_, ih⟩
    cases c <;> rfl

/-- Texts without surrogates stay as they are. -/
theorem withoutSurrogates_eq_self {t : Text} (h : t.isScalar = true) :
    t.withoutSurrogates = t := by
  induction t with
  | nil => rfl
  | cons c t ih =>
    cases c with
    | char c => exact congrArg (CodePoint.char c :: ·) (ih h)
    | surrogate i => cases h

end Deeplink.Text

namespace Deeplink.Json.Carrier

/-! ## Carriers -/

/-- What commands that are sent rest on. -/
structure Lawful (k : Carrier) : Prop where
  /-- Texts without surrogates can be sent, and no others. -/
  text : ∀ t, k.textFault? t = none ↔ t.isScalar = true
  /-- Values that are clean all the way down are sent as they are, and no others. -/
  value : ∀ v, v.IsCarried deepest ↔ k.valueFault? v = none ∧ k.value v = v
  /-- Names lose their surrogates, -/
  name_isScalar : ∀ t, (k.name t).isScalar = true
  /-- and nothing else. -/
  name_eq_self : ∀ t, t.isScalar = true → k.name t = t

/-- The standard carrier is one on which they can rest. -/
theorem standard_lawful : standard.Lawful where
  text := textFault?_eq_none_iff
  value := isCarried_iff deepest
  name_isScalar := Text.withoutSurrogates_isScalar
  name_eq_self _ := Text.withoutSurrogates_eq_self

end Deeplink.Json.Carrier

import Deeplink.Proofs.Json.NumberText
import Deeplink.Proofs.Json.Reads
import Deeplink.Proofs.Text.Scalar

/-!
# Plain values

An exact value has no floating-point numbers, no integers with too many digits, and no two members
of one object with the same key. A plain value has no surrogates either.

- `Json.isExact`, `Json.isPlain`: exact and plain values.
- `Json.levels`: how deep the containers of a value lie.
- `Json.write_eq_cons`: the first characters of exact values.
- `Json.write_isScalar`: a plain value is written without surrogates.
-/

namespace Deeplink.Json

/-! ## Plain values and levels -/

mutual

/-- A value without floating-point numbers, surrogates and repeated keys, whose integers have at
most so many digits. -/
def isPlain (digits : Nat) : Json → Bool
  | .null => true
  | .bool _ => true
  | .int n => decide ((Nat.toDigits 10 n.natAbs).length ≤ digits)
  | .float _ => false
  | .str s => s.isScalar
  | .arr items => itemsPlain digits items
  | .obj members => decide (members.map Prod.fst).Nodup && membersPlain digits members

def itemsPlain (digits : Nat) : List Json → Bool
  | [] => true
  | v :: rest => isPlain digits v && itemsPlain digits rest

def membersPlain (digits : Nat) : List (Text × Json) → Bool
  | [] => true
  | (k, v) :: rest => k.isScalar && isPlain digits v && membersPlain digits rest

end

mutual

/-- A value without floating-point numbers and repeated keys, whose integers have at most so many
digits. -/
def isExact (digits : Nat) : Json → Bool
  | .null => true
  | .bool _ => true
  | .int n => decide ((Nat.toDigits 10 n.natAbs).length ≤ digits)
  | .float _ => false
  | .str _ => true
  | .arr items => itemsExact digits items
  | .obj members => decide (members.map Prod.fst).Nodup && membersExact digits members

def itemsExact (digits : Nat) : List Json → Bool
  | [] => true
  | v :: rest => isExact digits v && itemsExact digits rest

def membersExact (digits : Nat) : List (Text × Json) → Bool
  | [] => true
  | (_, v) :: rest => isExact digits v && membersExact digits rest

end

mutual

/-- A plain value is exact. -/
theorem isExact_of_isPlain {digits : Nat} :
    ∀ v : Json, isPlain digits v = true → isExact digits v = true
  | .null, _ => rfl
  | .bool _, _ => rfl
  | .int _, h => h
  | .str _, _ => rfl
  | .arr items, h => itemsExact_of_itemsPlain items h
  | .obj members, h => by
    rw [isPlain, Bool.and_eq_true] at h
    rw [isExact, h.1, membersExact_of_membersPlain members h.2]
    rfl

theorem itemsExact_of_itemsPlain {digits : Nat} :
    ∀ items : List Json, itemsPlain digits items = true → itemsExact digits items = true
  | [], _ => rfl
  | v :: rest, h => by
    rw [itemsPlain, Bool.and_eq_true] at h
    rw [itemsExact, isExact_of_isPlain v h.1, itemsExact_of_itemsPlain rest h.2]
    rfl

theorem membersExact_of_membersPlain {digits : Nat} :
    ∀ members : List (Text × Json), membersPlain digits members = true →
      membersExact digits members = true
  | [], _ => rfl
  | (k, v) :: rest, h => by
    rw [membersPlain, Bool.and_eq_true, Bool.and_eq_true] at h
    rw [membersExact, isExact_of_isPlain v h.1.2, membersExact_of_membersPlain rest h.2]
    rfl

end

mutual

/-- How many containers lie inside each other. -/
def levels : Json → Nat
  | .arr items => itemsLevels items + 1
  | .obj members => membersLevels members + 1
  | _ => 0

def itemsLevels : List Json → Nat
  | [] => 0
  | v :: rest => max (levels v) (itemsLevels rest)

def membersLevels : List (Text × Json) → Nat
  | [] => 0
  | (_, v) :: rest => max (levels v) (membersLevels rest)

end

/-! ## First characters -/

section Write

variable {digits : Nat} (style : Style)

/-- What is written begins with a character that a value may begin with. -/
theorem write_eq_cons {v : Json} (h : isExact digits v = true) :
    ∃ c t, write style v = .char c :: t ∧ begins c = true := by
  cases v with
  | null => exact ⟨_, _, rfl, rfl⟩
  | bool b => cases b <;> exact ⟨_, _, rfl, rfl⟩
  | int n =>
    cases n with
    | ofNat n =>
      obtain ⟨c, t, hcons, hc⟩ := ofNat_eq_cons n
      exact ⟨c, t, hcons, by simp [begins, hc]⟩
    | negSucc n => exact ⟨_, _, rfl, rfl⟩
  | float x => cases h
  | str s => exact ⟨_, _, rfl, rfl⟩
  | arr items => exact ⟨_, _, rfl, rfl⟩
  | obj members => exact ⟨_, _, rfl, rfl⟩

/-- Items that are written begin with the first of them. -/
theorem writeItems_eq_cons {v : Json} (h : isExact digits v = true) (rest : List Json) :
    ∃ c t, writeItems style (v :: rest) = .char c :: t ∧ begins c = true := by
  obtain ⟨c, t, hcons, hc⟩ := write_eq_cons style h
  cases rest with
  | nil => exact ⟨c, t, hcons, hc⟩
  | cons w rest =>
    refine ⟨c, t ++ style.comma ++ writeItems style (w :: rest), ?_, hc⟩
    rw [writeItems, hcons]
    rfl

/-- Members that are written begin with the quotation mark of the first name. -/
theorem writeMembers_eq_cons (k : Text) (v : Json) (rest : List (Text × Json)) :
    ∃ t, writeMembers style ((k, v) :: rest) = .char '"' :: t := by
  cases rest with
  | nil => exact ⟨_, rfl⟩
  | cons m rest => exact ⟨_, rfl⟩

/-! ## Surrogates -/

variable {style}

/-- Digits are no surrogates. -/
theorem ofInt_isScalar (n : Int) : (Text.ofInt n).isScalar = true := by
  cases n with
  | ofNat n => exact Text.isScalar_ofChars _
  | negSucc n => exact Text.isScalar_ofChars _

mutual

/-- **A plain value is written without surrogates.** -/
theorem write_isScalar (hcomma : style.comma.isScalar = true)
    (hcolon : style.colon.isScalar = true) :
    ∀ v : Json, isPlain digits v = true → (write style v).isScalar = true
  | .null, _ => rfl
  | .bool true, _ => rfl
  | .bool false, _ => rfl
  | .int n, _ => ofInt_isScalar n
  | .float x, h => nomatch h
  | .str s, h => style.string_isScalar h
  | .arr items, h => by
    rw [write, Text.isScalar_append, Text.isScalar_cons_char,
      writeItems_isScalar hcomma hcolon items h]
    rfl
  | .obj members, h => by
    rw [isPlain, Bool.and_eq_true] at h
    rw [write, Text.isScalar_append, Text.isScalar_cons_char,
      writeMembers_isScalar hcomma hcolon members h.2]
    rfl

/-- The items of a plain array are written without surrogates. -/
theorem writeItems_isScalar (hcomma : style.comma.isScalar = true)
    (hcolon : style.colon.isScalar = true) :
    ∀ items : List Json, itemsPlain digits items = true →
      (writeItems style items).isScalar = true
  | [], _ => rfl
  | [v], h => by
    rw [itemsPlain, Bool.and_eq_true] at h
    exact write_isScalar hcomma hcolon v h.1
  | v :: w :: rest, h => by
    rw [itemsPlain, Bool.and_eq_true] at h
    rw [writeItems, Text.isScalar_append, Text.isScalar_append,
      write_isScalar hcomma hcolon v h.1, hcomma, writeItems_isScalar hcomma hcolon _ h.2]
    rfl

/-- The members of a plain object are written without surrogates. -/
theorem writeMembers_isScalar (hcomma : style.comma.isScalar = true)
    (hcolon : style.colon.isScalar = true) :
    ∀ members : List (Text × Json), membersPlain digits members = true →
      (writeMembers style members).isScalar = true
  | [], _ => rfl
  | [(k, v)], h => by
    simp only [membersPlain, Bool.and_eq_true] at h
    simp only [writeMembers, Text.isScalar_append, style.string_isScalar h.1.1, hcolon,
      write_isScalar hcomma hcolon v h.1.2, Bool.and_self]
  | (k, v) :: m :: rest, h => by
    rw [membersPlain, Bool.and_eq_true, Bool.and_eq_true] at h
    simp only [writeMembers, Text.isScalar_append, style.string_isScalar h.1.1, hcolon, hcomma,
      write_isScalar hcomma hcolon v h.1.2, writeMembers_isScalar hcomma hcolon _ h.2,
      Bool.and_self]

end

end Write

end Deeplink.Json

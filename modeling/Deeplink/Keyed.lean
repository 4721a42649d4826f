/-!
# Keyed lists

Pairs of keys and values, in the order in which their keys came.

- `Keyed.set`: sets the value of a key; a key that is already there keeps its place.
- `Keyed.lookup_set_self`, `Keyed.lookup_set_of_ne`: it changes the value of that key only.
-/

namespace Deeplink.Keyed

variable {κ α : Type} [DecidableEq κ]

/-- Sets the value of a key in its place, or adds both at the end. -/
def set (key : κ) (value : α) : List (κ × α) → List (κ × α)
  | [] => [(key, value)]
  | (k, v) :: rest => if k = key then (k, value) :: rest else (k, v) :: set key value rest

variable [BEq κ] [LawfulBEq κ]

/-- What is set is found. -/
@[simp] theorem lookup_set_self (key : κ) (value : α) (xs : List (κ × α)) :
    (set key value xs).lookup key = some value := by
  induction xs with
  | nil => simp [set]
  | cons x xs ih =>
    obtain ⟨k, v⟩ := x
    by_cases hk : k = key
    · simp [set, hk]
    · simp [set, hk, List.lookup_cons, beq_false_of_ne (Ne.symm hk), ih]

/-- Nothing else is touched by it. -/
theorem lookup_set_of_ne {key other : κ} (value : α) (xs : List (κ × α)) (h : other ≠ key) :
    (set key value xs).lookup other = xs.lookup other := by
  induction xs with
  | nil => simp [set, List.lookup_cons, beq_false_of_ne h]
  | cons x xs ih =>
    obtain ⟨k, v⟩ := x
    by_cases hk : k = key
    · subst hk
      simp [set, List.lookup_cons, beq_false_of_ne h]
    · simp only [set, if_neg hk, List.lookup_cons, ih]

end Deeplink.Keyed

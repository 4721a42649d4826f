import Deeplink.Proofs.Json.Carried
import Deeplink.Proofs.Json.Grammar

/-!
# Numbers inside values

Where the floating-point numbers inside a value come from.

- `Json.Shows`: a numeral inside what has been written; only the last pair of a name counts.
- `Json.NumberText.value_eq_float_iff`: the floating-point number that a numeral stands for.
- `Json.inside_float_iff`: the floating-point numbers inside a value are those of the numerals that
  have been written, each as deep as its numeral.
-/

namespace Deeplink.Json

/-- The numeral `n` has been written, `k` levels deep, and no later pair of the same name takes the
place of the one in which it lies. -/
inductive Shows : Nat → NumberText → Written → Prop where
  | self (n : NumberText) : Shows 0 n (.number n)
  | item {k : Nat} {n : NumberText} {w : Written} {items : List Written} (hw : w ∈ items)
      (h : Shows k n w) : Shows (k + 1) n (.arr items)
  | pair {k : Nat} {n : NumberText} {w : Written} {key : Text} {pairs : List (Text × Written)}
      (hw : pairs.reverse.lookup key = some w) (h : Shows k n w) : Shows (k + 1) n (.obj pairs)

/-! ## Numerals -/

/-- A numeral with a fraction or an exponent stands for the nearest floating-point number. -/
theorem NumberText.value_eq_float_iff {n : NumberText} {x : Binary64} :
    n.value = .float x
      ↔ n.isWhole = false ∧ Binary64.IsNearest n.negative n.magnitude x := by
  rw [NumberText.value]
  by_cases hwhole : n.isWhole = true
  · rw [if_pos hwhole, hwhole]
    exact ⟨nofun, nofun⟩
  · rw [if_neg hwhole, Json.float.injEq, and_iff_right (Bool.eq_false_iff.mpr hwhole)]
    constructor
    · rintro rfl
      exact n.toBinary64_isNearest
    · exact fun h => n.toBinary64_isNearest.unique h

/-- A numeral stands for a number, and nothing lies inside it. -/
theorem NumberText.not_inside {n : NumberText} {k : Nat} {v : Json} :
    ¬ Inside (k + 1) v n.value := by
  rw [NumberText.value]
  split
  · exact nofun
  · exact nofun

/-! ## Containers -/

theorem Written.values_eq_map (items : List Written) : values items = items.map value := by
  induction items with
  | nil => rfl
  | cons w rest ih => rw [values, ih, List.map_cons]

theorem Written.pairValues_eq_map (pairs : List (Text × Written)) :
    pairValues pairs = pairs.map (Prod.map id value) := by
  induction pairs with
  | nil => rfl
  | cons pair rest ih =>
    obtain ⟨k, w⟩ := pair
    rw [pairValues, ih, List.map_cons]
    rfl

/-- The members of an object are the last pairs of their names. -/
theorem mem_collect_iff {pairs : List (Text × Written)} {k : Text} {v : Json} :
    (k, v) ∈ collect (Written.pairValues pairs)
      ↔ ∃ w, pairs.reverse.lookup k = some w ∧ w.value = v := by
  rw [Keyed.mem_iff_lookup (collect_nodup _), (collect_resolves _).last,
    Written.pairValues_eq_map, ← List.map_reverse, Keyed.lookup_map, Option.map_eq_some_iff]

/-! ## Values -/

theorem inside_zero {u v : Json} : Inside 0 u v ↔ u = v := by
  constructor
  · rintro ⟨⟩
    rfl
  · rintro rfl
    exact .self u

/-- **The floating-point numbers inside a value come from the numerals in its text.** The induction
is on the depth, which the numeral and the number have in common. -/
theorem inside_float_iff {k : Nat} {w : Written} {x : Binary64} :
    Inside k (.float x) w.value ↔ ∃ n, Shows k n w ∧ n.value = .float x := by
  induction k generalizing w with
  | zero =>
    rw [inside_zero]
    cases w with
    | number n =>
      constructor
      · exact fun h => ⟨n, .self n, h.symm⟩
      · rintro ⟨n, ⟨⟩, h⟩
        exact h.symm
    | _ =>
      constructor
      · nofun
      · rintro ⟨n, ⟨⟩, -⟩
  | succ k ih =>
    cases w with
    | arr items =>
      rw [Written.value, Written.values_eq_map]
      constructor
      · rintro (_ | ⟨hv, h⟩)
        obtain ⟨w, hw, rfl⟩ := List.mem_map.mp hv
        obtain ⟨n, hn, hvalue⟩ := ih.mp h
        exact ⟨n, .item hw hn, hvalue⟩
      · rintro ⟨n, _ | ⟨hw, hn⟩, hvalue⟩
        exact .item (List.mem_map_of_mem hw) (ih.mpr ⟨n, hn, hvalue⟩)
    | obj pairs =>
      rw [Written.value]
      constructor
      · rintro (_ | _ | ⟨hv, h⟩)
        obtain ⟨w, hw, rfl⟩ := mem_collect_iff.mp hv
        obtain ⟨n, hn, hvalue⟩ := ih.mp h
        exact ⟨n, .pair hw hn, hvalue⟩
      · rintro ⟨n, _ | _ | ⟨hw, hn⟩, hvalue⟩
        exact .member (mem_collect_iff.mpr ⟨_, hw, rfl⟩) (ih.mpr ⟨n, hn, hvalue⟩)
    | number m =>
      constructor
      · exact fun h => absurd h NumberText.not_inside
      · rintro ⟨n, ⟨⟩, -⟩
    | _ =>
      constructor
      · nofun
      · rintro ⟨n, ⟨⟩, -⟩

end Deeplink.Json

import Deeplink.Proofs.Binary64.Rounding
import Deeplink.Proofs.Json.Numerals
import Deeplink.Proofs.Json.Strings

/-!
# The grammar of JSON

What the texts of values are, and what they stand for, apart from how they are read.

- `Json.Written`: how a value has been written. The pairs of an object are all there.
- `Json.Written.value`: what it stands for. The last pair of a name gives its value.
- `Json.Spells`: the texts of values, by the productions of the grammar.
- `Json.SpellsElement`: a value with blanks around it, which is what a whole text has to be.
- `Json.NumberText.toBinary64_isNearest`: a floating-point number is the nearest to what is written.
- `Json.collect_resolves`: the members of an object are in the order of the first pairs of their
  names, and have the values of the last ones.
- `Json.Denotes`: what a written value stands for, said without a computation.
- `Json.Denotes.eq_value`: it stands for one value.
-/

namespace Deeplink.Json

/-! ## Written values -/

/-- How a value has been written. -/
inductive Written where
  | null
  | bool (b : Bool)
  | number (n : NumberText)
  | str (s : Text)
  | arr (items : List Written)
  | obj (pairs : List (Text × Written))

namespace Written

mutual

/-- What has been written. -/
def value : Written → Json
  | .null => .null
  | .bool b => .bool b
  | .number n => n.value
  | .str s => .str s
  | .arr items => .arr (values items)
  | .obj pairs => .obj (collect (pairValues pairs))

def values : List Written → List Json
  | [] => []
  | w :: rest => value w :: values rest

def pairValues : List (Text × Written) → List (Text × Json)
  | [] => []
  | (k, w) :: rest => (k, value w) :: pairValues rest

end

mutual

/-- How many containers lie inside each other. -/
def levels : Written → Nat
  | .arr items => itemsLevels items + 1
  | .obj pairs => pairsLevels pairs + 1
  | _ => 0

def itemsLevels : List Written → Nat
  | [] => 0
  | w :: rest => max (levels w) (itemsLevels rest)

def pairsLevels : List (Text × Written) → Nat
  | [] => 0
  | (_, w) :: rest => max (levels w) (pairsLevels rest)

end

mutual

/-- The greatest number of digits of an integer. -/
def integerDigits : Written → Nat
  | .number n => n.integerDigits
  | .arr items => itemsDigits items
  | .obj pairs => pairsDigits pairs
  | _ => 0

def itemsDigits : List Written → Nat
  | [] => 0
  | w :: rest => max (integerDigits w) (itemsDigits rest)

def pairsDigits : List (Text × Written) → Nat
  | [] => 0
  | (_, w) :: rest => max (integerDigits w) (pairsDigits rest)

end

/-- Only an object stands for members. -/
theorem eq_obj_of_value {w : Written} {members : List (Text × Json)}
    (h : w.value = .obj members) : ∃ pairs, w = .obj pairs := by
  cases w with
  | obj pairs => exact ⟨pairs, rfl⟩
  | number n =>
    rw [value, NumberText.value] at h
    split at h
    · cases h
    · cases h
  | _ => cases h

end Written

/-! ## What values stand for -/

/-- The magnitude that the parts of a number stand for. -/
def NumberText.magnitude (n : NumberText) : ℚ :=
  (digitsValue n.whole + digitsValue (n.fraction.getD []) / 10 ^ (n.fraction.getD []).length)
    * 10 ^ n.exponentValue

/-- Digits behind others make these count by so many powers of ten. -/
theorem NumberText.digitsValue_append (xs ys : List Char) :
    digitsValue (xs ++ ys) = 10 ^ ys.length * digitsValue xs + digitsValue ys := by
  rw [digitsValue, Nat.ofDigitChars_append, Nat.ofDigitChars_eq_ofDigitChars_zero]
  rfl

/-- **The floating-point number of a numeral is the nearest one.** -/
theorem NumberText.toBinary64_isNearest (n : NumberText) :
    Binary64.IsNearest n.negative n.magnitude n.toBinary64 := by
  have h := Binary64.ofDecimal_isNearest n.negative
    (digitsValue (n.whole ++ n.fraction.getD [])) (n.exponentValue - (n.fraction.getD []).length)
  have hmagnitude : (digitsValue (n.whole ++ n.fraction.getD []) : ℚ)
      * 10 ^ (n.exponentValue - (n.fraction.getD []).length : ℤ) = n.magnitude := by
    rw [magnitude, digitsValue_append, zpow_sub₀ (by norm_num), zpow_natCast]
    push_cast
    field_simp
  rw [hmagnitude] at h
  exact h

/-- What the pairs of an object come to: each name has the place of its first pair and the value of
its last one. -/
structure Resolves (pairs members : List (Text × Json)) : Prop where
  names : members.map Prod.fst = (pairs.map Prod.fst).eraseDups
  last : ∀ k, members.lookup k = pairs.reverse.lookup k

/-- **Pairs are collected in this way.** The induction takes the last pair away. -/
theorem collect_resolves (pairs : List (Text × Json)) : Resolves pairs (collect pairs) := by
  induction pairs using List.reverseRecOn with
  | nil => exact ⟨rfl, fun k => rfl⟩
  | append_singleton pairs pair ih =>
    obtain ⟨key, v⟩ := pair
    have hcollect : collect (pairs ++ [(key, v)]) = Keyed.set key v (collect pairs) := by
      rw [collect, List.foldl_append]
      rfl
    rw [hcollect]
    constructor
    · rw [Keyed.map_fst_set, ih.names, List.map_append, List.eraseDups_append]
      by_cases hkey : key ∈ pairs.map Prod.fst
      · rw [if_pos (List.mem_eraseDups.mpr hkey)]
        simp [List.removeAll, hkey]
      · rw [if_neg (mt List.mem_eraseDups.mp hkey)]
        simp [List.removeAll, hkey, List.eraseDups_cons]
    · intro k
      rw [List.reverse_append]
      show _ = List.lookup k ((key, v) :: pairs.reverse)
      rcases eq_or_ne k key with rfl | hne
      · rw [Keyed.lookup_set_self, List.lookup_cons_self]
      · rw [Keyed.lookup_set_of_ne v _ hne, ih.last, List.lookup_cons, beq_false_of_ne hne]

/-! ## Denotations -/

/-- After resolution each name is there once. -/
theorem Resolves.nodup {pairs members : List (Text × Json)} (h : Resolves pairs members) :
    (members.map Prod.fst).Nodup := by
  rw [h.names, ← (collect_resolves pairs).names]
  exact collect_nodup pairs

/-- There is one way to resolve pairs. -/
theorem Resolves.unique {pairs members members' : List (Text × Json)}
    (h : Resolves pairs members) (h' : Resolves pairs members') : members = members' :=
  Keyed.eq_of_lookup (h.names.trans h'.names.symm) h.nodup
    fun k => (h.last k).trans (h'.last k).symm

mutual

/-- What a written value stands for: integers as they are, other numbers as the nearest
floating-point numbers, and objects as what their pairs come to. -/
inductive Denotes : Written → Json → Prop where
  | null : Denotes .null .null
  | bool (b : Bool) : Denotes (.bool b) (.bool b)
  | int {n : NumberText} (h : n.isWhole = true) : Denotes (.number n) (.int n.toInt)
  | float {n : NumberText} {x : Binary64} (h : n.isWhole = false)
      (hx : Binary64.IsNearest n.negative n.magnitude x) : Denotes (.number n) (.float x)
  | str (s : Text) : Denotes (.str s) (.str s)
  | arr {items : List Written} {vs : List Json} (h : DenotesItems items vs) :
      Denotes (.arr items) (.arr vs)
  | obj {pairs : List (Text × Written)} {values members : List (Text × Json)}
      (h : DenotesPairs pairs values) (hmembers : Resolves values members) :
      Denotes (.obj pairs) (.obj members)

inductive DenotesItems : List Written → List Json → Prop where
  | nil : DenotesItems [] []
  | cons {w : Written} {v : Json} {items : List Written} {vs : List Json} (h : Denotes w v)
      (hrest : DenotesItems items vs) : DenotesItems (w :: items) (v :: vs)

inductive DenotesPairs : List (Text × Written) → List (Text × Json) → Prop where
  | nil : DenotesPairs [] []
  | cons {k : Text} {w : Written} {v : Json} {pairs : List (Text × Written)}
      {values : List (Text × Json)} (h : Denotes w v) (hrest : DenotesPairs pairs values) :
      DenotesPairs ((k, w) :: pairs) ((k, v) :: values)

end

mutual

/-- The value that is computed is one that the written value stands for. -/
theorem denotes_value : ∀ w : Written, Denotes w w.value
  | .null => .null
  | .bool b => .bool b
  | .number n => by
    rw [Written.value, NumberText.value]
    split
    · next h => exact .int h
    · next h => exact .float (Bool.eq_false_iff.mpr h) n.toBinary64_isNearest
  | .str s => .str s
  | .arr items => by
    rw [Written.value]
    exact .arr (denotesItems_values items)
  | .obj pairs => by
    rw [Written.value]
    exact .obj (denotesPairs_values pairs) (collect_resolves _)

theorem denotesItems_values : ∀ items : List Written, DenotesItems items (Written.values items)
  | [] => .nil
  | w :: rest => .cons (denotes_value w) (denotesItems_values rest)

theorem denotesPairs_values : ∀ pairs : List (Text × Written),
    DenotesPairs pairs (Written.pairValues pairs)
  | [] => .nil
  | (_, w) :: rest => .cons (denotes_value w) (denotesPairs_values rest)

end

mutual

/-- **A written value stands for one value.** -/
theorem Denotes.eq_value : ∀ {w : Written} {v : Json}, Denotes w v → v = w.value
  | .null, _, .null => rfl
  | .bool _, _, .bool _ => rfl
  | .number n, _, .int h => by rw [Written.value, NumberText.value, if_pos h]
  | .number n, _, .float h hx => by
    rw [Written.value, NumberText.value, if_neg (Bool.eq_false_iff.mp h),
      hx.unique n.toBinary64_isNearest]
  | .str _, _, .str _ => rfl
  | .arr items, _, .arr h => by rw [Written.value, h.eq_values]
  | .obj pairs, _, .obj h hmembers => by
    obtain rfl := h.eq_pairValues
    rw [Written.value, hmembers.unique (collect_resolves _)]

/-- The items of an array stand for one list of values. -/
theorem DenotesItems.eq_values : ∀ {items : List Written} {vs : List Json},
    DenotesItems items vs → vs = Written.values items
  | [], _, .nil => rfl
  | w :: rest, _, .cons h hrest => by rw [Written.values, h.eq_value, hrest.eq_values]

/-- The pairs of an object stand for one list of values. -/
theorem DenotesPairs.eq_pairValues : ∀ {pairs : List (Text × Written)}
    {values : List (Text × Json)}, DenotesPairs pairs values → values = Written.pairValues pairs
  | [], _, .nil => rfl
  | (k, w) :: rest, _, .cons h hrest => by
    rw [Written.pairValues, h.eq_value, hrest.eq_pairValues]

end

/-! ## Values -/

/-- Spaces, tabs, line feeds and carriage returns. -/
def IsBlanks (t : Text) : Prop := t.all isBlank = true

mutual

/-- A value. -/
inductive Spells : Text → Written → Prop where
  | null : Spells "null" .null
  | yes : Spells "true" (.bool true)
  | no : Spells "false" (.bool false)
  | number {t : Text} {n : NumberText} (h : n.Spelled t) : Spells t (.number n)
  | str {t s : Text} (h : SpellsString t s) : Spells t (.str s)
  | emptyArr {blanks : Text} (h : IsBlanks blanks) :
      Spells (.char '[' :: (blanks ++ [.char ']'])) (.arr [])
  | arr {t : Text} {items : List Written} (h : SpellsItems t items) :
      Spells (.char '[' :: (t ++ [.char ']'])) (.arr items)
  | emptyObj {blanks : Text} (h : IsBlanks blanks) :
      Spells (.char '\x7b' :: (blanks ++ [.char '\x7d'])) (.obj [])
  | obj {t : Text} {pairs : List (Text × Written)} (h : SpellsPairs t pairs) :
      Spells (.char '\x7b' :: (t ++ [.char '\x7d'])) (.obj pairs)

/-- A value with blanks around it. -/
inductive SpellsElement : Text → Written → Prop where
  | mk {before t behind : Text} {w : Written} (hbefore : IsBlanks before) (h : Spells t w)
      (hbehind : IsBlanks behind) : SpellsElement (before ++ (t ++ behind)) w

/-- At least one element, with commas in the gaps. -/
inductive SpellsItems : Text → List Written → Prop where
  | one {t : Text} {w : Written} (h : SpellsElement t w) : SpellsItems t [w]
  | more {t rest : Text} {w : Written} {items : List Written} (h : SpellsElement t w)
      (hrest : SpellsItems rest items) : SpellsItems (t ++ .char ',' :: rest) (w :: items)

/-- A name with blanks around it, a colon, and an element. -/
inductive SpellsPair : Text → Text × Written → Prop where
  | mk {before name behind t : Text} {k : Text} {w : Written} (hbefore : IsBlanks before)
      (hname : SpellsString name k) (hbehind : IsBlanks behind) (h : SpellsElement t w) :
      SpellsPair (before ++ (name ++ (behind ++ .char ':' :: t))) (k, w)

/-- At least one pair, with commas in the gaps. -/
inductive SpellsPairs : Text → List (Text × Written) → Prop where
  | one {t : Text} {pair : Text × Written} (h : SpellsPair t pair) : SpellsPairs t [pair]
  | more {t rest : Text} {pair : Text × Written} {pairs : List (Text × Written)}
      (h : SpellsPair t pair) (hrest : SpellsPairs rest pairs) :
      SpellsPairs (t ++ .char ',' :: rest) (pair :: pairs)

end

end Deeplink.Json

import Deeplink.Proofs.Json.Magnitudes
import Deeplink.Proofs.Json.Numbers
import Deeplink.Proofs.Json.Soundness
import Mathlib.Data.List.Perm.Subperm

/-!
# Equality of values

When two values agree, said without the functions that compare them.

- `Json.mem_induction`: induction on the containers of a value.
- `Json.Same`: equality as data. Numbers are equal as rational numbers, whatever their kind, and
  objects as maps from names to values.
- `Json.Regular`: no value inside is no number, and the names in each object are different.
- `Json.agrees_iff_same`: regular values agree exactly if they are the same.
- `Json.Same.symm`, `Json.Same.trans`, `Json.Regular.same_self`: this is an equivalence.
- `Json.read_regular`: what is read is regular.
- `Json.Reorders`: the members of one object, somewhere inside, come in another order.
- `Json.Regular.of_reorders`, `Json.Regular.same_of_reorders`: the value stays regular, and the
  same.
-/

namespace Deeplink

namespace Keyed

variable {κ α β : Type} [BEq κ] [LawfulBEq κ]

/-- Of two lists of one length, each pair of the first has a counterpart in the second exactly if
both have the same keys and the values of each key are related. -/
theorem counterparts_iff {r : α → β → Prop} {xs : List (κ × α)} {ys : List (κ × β)}
    (hxs : (xs.map Prod.fst).Nodup) (hys : (ys.map Prod.fst).Nodup) :
    (xs.length = ys.length ∧ ∀ x ∈ xs, ∃ w, (x.1, w) ∈ ys ∧ r x.2 w)
      ↔ (∀ k, k ∈ xs.map Prod.fst ↔ k ∈ ys.map Prod.fst)
        ∧ ∀ k v w, (k, v) ∈ xs → (k, w) ∈ ys → r v w := by
  rw [← List.perm_ext_iff_of_nodup hxs hys]
  constructor
  · rintro ⟨hlength, h⟩
    have hsubset : xs.map Prod.fst ⊆ ys.map Prod.fst := by
      intro k hk
      obtain ⟨⟨_, v⟩, hv, rfl⟩ := List.mem_map.mp hk
      obtain ⟨w, hw, -⟩ := h _ hv
      exact List.mem_map_of_mem hw
    refine ⟨(hxs.subperm hsubset).perm_of_length_le ?_, fun k v w hv hw => ?_⟩
    · rw [List.length_map, List.length_map, hlength]
    · obtain ⟨w', hw', hr⟩ := h _ hv
      exact value_unique hys hw hw' ▸ hr
  · rintro ⟨hperm, h⟩
    refine ⟨?_, fun ⟨k, v⟩ hv => ?_⟩
    · have hlength := hperm.length_eq
      rwa [List.length_map, List.length_map] at hlength
    · obtain ⟨⟨_, w⟩, hw, rfl⟩ := List.mem_map.mp (hperm.mem_iff.mp (List.mem_map_of_mem hv))
      exact ⟨w, hw, h _ v w hv hw⟩

end Keyed

namespace Json

/-! ## Containers -/

/-- What holds of a container if it holds of everything in it, and of all other values, holds of
every value. -/
@[elab_as_elim]
theorem mem_induction {motive : Json → Prop} (null : motive .null) (bool : ∀ b, motive (.bool b))
    (int : ∀ n, motive (.int n)) (float : ∀ x, motive (.float x)) (str : ∀ s, motive (.str s))
    (arr : ∀ items : List Json, (∀ v ∈ items, motive v) → motive (.arr items))
    (obj : ∀ members : List (Text × Json), (∀ m ∈ members, motive m.2) → motive (.obj members))
    (v : Json) : motive v := by
  refine @Json.rec motive (fun items => ∀ v ∈ items, motive v)
    (fun members => ∀ m ∈ members, motive m.2) (fun m => motive m.2) null bool int float str arr obj
    ?_ ?_ ?_ ?_ ?_ v
  · exact fun v hv => nomatch hv
  · exact fun v items hv hitems => List.forall_mem_cons.mpr ⟨hv, hitems⟩
  · exact fun m hm => nomatch hm
  · exact fun m members hm hmembers => List.forall_mem_cons.mpr ⟨hm, hmembers⟩
  · exact fun k v hv => hv

variable {u v w : Json} {q : ℚ} {negative : Bool}

/-! ## Equality -/

/-- Equality as data: numbers by their values, lists place by place, and objects name by name. -/
inductive Same : Json → Json → Prop where
  | null : Same .null .null
  | str (s : Text) : Same (.str s) (.str s)
  | number {v w : Json} {q : ℚ} (hv : IsNumber v q) (hw : IsNumber w q) : Same v w
  | infinity {v w : Json} {negative : Bool} (hv : IsInfinity negative v)
      (hw : IsInfinity negative w) : Same v w
  | arr {xs ys : List Json} (hlength : xs.length = ys.length)
      (h : ∀ i (hx : i < xs.length) (hy : i < ys.length), Same xs[i] ys[i]) :
      Same (.arr xs) (.arr ys)
  | obj {ms ns : List (Text × Json)} (hnames : ∀ k, k ∈ ms.map Prod.fst ↔ k ∈ ns.map Prod.fst)
      (h : ∀ k v w, (k, v) ∈ ms → (k, w) ∈ ns → Same v w) : Same (.obj ms) (.obj ns)

/-- Sameness goes both ways. The induction is on the first of the two values. -/
theorem Same.symm (h : Same v w) : Same w v := by
  induction h with
  | null => exact .null
  | str s => exact .str s
  | number hv hw => exact .number hw hv
  | infinity hv hw => exact .infinity hw hv
  | arr hlength h ih => exact .arr hlength.symm fun i hy hx => ih i hx hy
  | obj hnames h ih => exact .obj (fun k => (hnames k).symm) fun k w v hw hv => ih k v w hv hw

/-- What is the same as a number is that number. -/
theorem same_iff_isNumber (hv : IsNumber v q) : Same v w ↔ IsNumber w q := by
  constructor
  · intro h
    cases h with
    | number hv' hw => exact hv.unique hv' ▸ hw
    | infinity hv' hw => exact absurd hv' hv.not_isInfinity
    | _ => cases hv
  · exact .number hv

/-- What is the same as an infinity is that infinity. -/
theorem Same.isInfinity (h : Same v w) (hv : IsInfinity negative v) : IsInfinity negative w := by
  cases h with
  | number hv' hw => exact absurd hv hv'.not_isInfinity
  | infinity hv' hw => exact hv.unique hv' ▸ hw
  | _ => cases hv

/-- Sameness is passed on from one value to the next. -/
theorem Same.trans (h : Same u v) (h' : Same v w) : Same u w := by
  induction h generalizing w with
  | null => exact h'
  | str s => exact h'
  | number hu hv => exact .number hu ((same_iff_isNumber hv).mp h')
  | infinity hu hv => exact .infinity hu (h'.isInfinity hv)
  | arr hlength h ih =>
    cases h' with
    | number hv _ => cases hv
    | infinity hv _ => cases hv
    | arr hlength' h' =>
      exact .arr (hlength.trans hlength') fun i hx hz =>
        ih i hx (hlength ▸ hx) (h' i (hlength ▸ hx) hz)
  | @obj ms ns hnames h ih =>
    cases h' with
    | number hv _ => cases hv
    | infinity hv _ => cases hv
    | obj hnames' h' =>
      refine .obj (fun k => (hnames k).trans (hnames' k)) fun k u w hu hw => ?_
      -- the name is in the object between them, too
      obtain ⟨⟨_, v⟩, hv, rfl⟩ := List.mem_map.mp ((hnames k).mp (List.mem_map_of_mem hu))
      exact ih _ u v hu hv (h' _ v w hv hw)

/-! ## Regular values -/

/-- A value by itself is one that is equal to itself: a number, or an object whose names are
different. -/
def IsRegular : Json → Prop
  | .float x => x.isNaN = false
  | .obj members => (members.map Prod.fst).Nodup
  | _ => True

/-- Everything inside a value is regular, the value itself included. -/
def Regular (v : Json) : Prop := ∀ k u, Inside k u v → u.IsRegular

/-- An array is regular if its items are. -/
theorem regular_arr {items : List Json} : Regular (.arr items) ↔ ∀ v ∈ items, Regular v := by
  constructor
  · exact fun h v hv k u hu => h (k + 1) u (.item hv hu)
  · intro h k u hu
    cases hu with
    | self => trivial
    | item hv hu => exact h _ hv _ _ hu

/-- An object is regular if each name is there once and its values are regular. -/
theorem regular_obj {members : List (Text × Json)} : Regular (.obj members)
    ↔ (members.map Prod.fst).Nodup ∧ ∀ m ∈ members, Regular m.2 := by
  constructor
  · exact fun h => ⟨h 0 _ (.self _), fun m hm k u hu => h (k + 1) u (.member hm hu)⟩
  · rintro ⟨hnodup, h⟩ k u hu
    cases hu with
    | self => exact hnodup
    | member hv hu => exact h _ hv _ _ hu

/-- A floating-point number that is one has a value. -/
theorem number_or_infinity {x : Binary64} (h : x.isNaN = false) :
    (∃ q, IsNumber (.float x) q) ∨ ∃ negative, IsInfinity negative (.float x) := by
  by_cases hinfinite : x.isInfinite = true
  · exact .inr ⟨_, .float hinfinite rfl⟩
  · refine .inl ⟨_, .float ?_⟩
    rw [x.isFinite_eq, h, Bool.eq_false_iff.mpr hinfinite]
    rfl

/-- **A regular value is the same as itself.** -/
theorem Regular.same_self (h : Regular v) : Same v v := by
  induction v using mem_induction with
  | null => exact .null
  | bool b => exact .number (.bool b) (.bool b)
  | int n => exact .number (.int n) (.int n)
  | float x =>
    rcases number_or_infinity (h 0 _ (.self _)) with ⟨q, hq⟩ | ⟨negative, hinfinity⟩
    · exact .number hq hq
    · exact .infinity hinfinity hinfinity
  | str s => exact .str s
  | arr items ih =>
    refine .arr rfl fun i hx _ => ?_
    exact ih _ (List.getElem_mem hx) (regular_arr.mp h _ (List.getElem_mem hx))
  | obj members ih =>
    obtain ⟨hnodup, hmembers⟩ := regular_obj.mp h
    refine .obj (fun _ => Iff.rfl) fun k v w hv hw => ?_
    obtain rfl := Keyed.value_unique hnodup hv hw
    exact ih _ hv (hmembers _ hv)

/-! ## Agreement -/

/-- Items agree one by one, in order. -/
theorem itemsAgree_iff {xs ys : List Json} : itemsAgree xs ys = true ↔ xs.length = ys.length
    ∧ ∀ i (hx : i < xs.length) (hy : i < ys.length), agrees xs[i] ys[i] = true := by
  induction xs generalizing ys with
  | nil => cases ys <;> simp [itemsAgree]
  | cons x xs ih =>
    cases ys with
    | nil => simp [itemsAgree]
    | cons y ys =>
      rw [itemsAgree, Bool.and_eq_true, ih]
      constructor
      · rintro ⟨hfirst, hlength, hrest⟩
        refine ⟨congrArg (· + 1) hlength, fun i hx hy => ?_⟩
        cases i with
        | zero => exact hfirst
        | succ i => exact hrest i (Nat.lt_of_succ_lt_succ hx) (Nat.lt_of_succ_lt_succ hy)
      · rintro ⟨hlength, h⟩
        exact ⟨h 0 (Nat.succ_pos _) (Nat.succ_pos _), Nat.succ.inj hlength,
          fun i hx hy => h (i + 1) (Nat.succ_lt_succ hx) (Nat.succ_lt_succ hy)⟩

/-- Members agree by name, in any order. -/
theorem membersAgree_iff {ms ns : List (Text × Json)} (hns : (ns.map Prod.fst).Nodup) :
    membersAgree ms ns = true
      ↔ ∀ m ∈ ms, ∃ w, (m.1, w) ∈ ns ∧ agrees m.2 w = true := by
  induction ms with
  | nil => simp [membersAgree]
  | cons m ms ih =>
    obtain ⟨k, v⟩ := m
    rw [membersAgree, Bool.and_eq_true, ih, List.forall_mem_cons]
    refine and_congr_left fun _ => ?_
    simp only [Keyed.mem_iff_lookup hns, member?]
    cases ns.lookup k with
    | none => simp
    | some w => simp

/-- Numbers agree with what has their value, whatever its kind. -/
theorem agrees_iff_same_of_number
    (hv : (∃ q, IsNumber v q) ∨ ∃ negative, IsInfinity negative v) :
    agrees v w = true ↔ Same v w := by
  have hagrees : agrees v w = sameNumber v w := by
    rcases hv with ⟨q, ⟨⟩⟩ | ⟨negative, ⟨⟩⟩ <;> cases w <;> rfl
  rw [hagrees, sameNumber_iff]
  constructor
  · rintro (⟨q, hq, hq'⟩ | ⟨negative, hinfinity, hinfinity'⟩)
    · exact .number hq hq'
    · exact .infinity hinfinity hinfinity'
  · intro h
    rcases hv with ⟨q, hq⟩ | ⟨negative, hinfinity⟩
    · exact .inl ⟨q, hq, (same_iff_isNumber hq).mp h⟩
    · exact .inr ⟨negative, hinfinity, h.isInfinity hinfinity⟩

theorem same_str_iff {s : Text} : Same (.str s) w ↔ w = .str s := by
  constructor
  · rintro (_ | _ | ⟨⟨⟩, -⟩ | ⟨⟨⟩, -⟩)
    rfl
  · rintro rfl
    exact .str s

/-- What is the same as an array has the same items in order. -/
theorem same_arr_iff {xs : List Json} : Same (.arr xs) w ↔ ∃ ys, w = .arr ys
    ∧ xs.length = ys.length
    ∧ ∀ i (hx : i < xs.length) (hy : i < ys.length), Same xs[i] ys[i] := by
  constructor
  · rintro (_ | _ | ⟨⟨⟩, -⟩ | ⟨⟨⟩, -⟩ | ⟨hlength, h⟩)
    exact ⟨_, rfl, hlength, h⟩
  · rintro ⟨ys, rfl, hlength, h⟩
    exact .arr hlength h

/-- What is the same as an object has the same values under the same names. -/
theorem same_obj_iff {ms : List (Text × Json)} : Same (.obj ms) w ↔ ∃ ns, w = .obj ns
    ∧ (∀ k, k ∈ ms.map Prod.fst ↔ k ∈ ns.map Prod.fst)
    ∧ ∀ k v w, (k, v) ∈ ms → (k, w) ∈ ns → Same v w := by
  constructor
  · rintro (_ | _ | ⟨⟨⟩, -⟩ | ⟨⟨⟩, -⟩ | _ | ⟨hnames, h⟩)
    exact ⟨_, rfl, hnames, h⟩
  · rintro ⟨ns, rfl, hnames, h⟩
    exact .obj hnames h

/-- **Regular values agree exactly if they are the same.** -/
theorem agrees_iff_same (hv : Regular v) (hw : Regular w) : agrees v w = true ↔ Same v w := by
  induction v using mem_induction generalizing w with
  | bool b => exact agrees_iff_same_of_number (.inl ⟨_, .bool b⟩)
  | int n => exact agrees_iff_same_of_number (.inl ⟨_, .int n⟩)
  | float x => exact agrees_iff_same_of_number (number_or_infinity (hv 0 _ (.self _)))
  | null =>
    cases w with
    | null => exact iff_of_true rfl .null
    | _ => exact iff_of_false nofun (by rintro (_ | _ | ⟨⟨⟩, -⟩ | ⟨⟨⟩, -⟩))
  | str s =>
    rw [same_str_iff]
    cases w with
    | str t => rw [agrees, decide_eq_true_iff, str.injEq, eq_comm]
    | _ => exact iff_of_false nofun nofun
  | arr xs ih =>
    rw [same_arr_iff]
    cases w with
    | arr ys =>
      rw [agrees, itemsAgree_iff]
      simp only [arr.injEq, exists_eq_left']
      refine and_congr_right fun _ => forall_congr' fun i => forall₂_congr fun hx hy => ?_
      exact ih _ (List.getElem_mem hx) (regular_arr.mp hv _ (List.getElem_mem hx))
        (regular_arr.mp hw _ (List.getElem_mem hy))
    | _ => exact iff_of_false nofun nofun
  | obj ms ih =>
    rw [same_obj_iff]
    cases w with
    | obj ns =>
      obtain ⟨hms, hvs⟩ := regular_obj.mp hv
      obtain ⟨hns, hws⟩ := regular_obj.mp hw
      simp only [obj.injEq, exists_eq_left']
      rw [agrees, Bool.and_eq_true, decide_eq_true_iff, membersAgree_iff hns]
      refine (Keyed.counterparts_iff (r := fun v w => agrees v w = true) hms hns).trans ?_
      refine and_congr_right fun _ => forall₃_congr fun k v w => forall₂_congr fun hv hw => ?_
      exact ih _ hv (hvs _ hv) (hws _ hw)
    | _ => exact iff_of_false nofun nofun

/-- The integer behind a floating-point number that has no successor by one is another value. -/
example : agrees (.int (2 ^ 53 + 1)) (.float (Binary64.ofDecimal false (2 ^ 53) 0)) = false
    ∧ agrees (.int (2 ^ 53)) (.float (Binary64.ofDecimal false (2 ^ 53 + 1) 0)) = true := by
  decide +kernel

/-! ## Values that have been read -/

/-- No numeral is read as a NaN. -/
theorem NumberText.value_isRegular (n : NumberText) : n.value.IsRegular := by
  rw [NumberText.value]
  split
  · trivial
  · exact n.toBinary64_isNearest.isNaN_eq_false

/-- Everything inside a written value has been written. The induction is on the depth. -/
theorem Written.isRegular_of_inside {k : Nat} {w : Written} (h : Inside k u w.value) :
    u.IsRegular := by
  induction k generalizing w with
  | zero =>
    obtain rfl := inside_zero.mp h
    cases w with
    | number n => exact n.value_isRegular
    | obj pairs => exact collect_nodup _
    | _ => trivial
  | succ k ih =>
    cases w with
    | arr items =>
      rw [Written.value, Written.values_eq_map] at h
      rcases h with _ | ⟨hv, h⟩
      obtain ⟨w, hw, rfl⟩ := List.mem_map.mp hv
      exact ih h
    | obj pairs =>
      rw [Written.value] at h
      rcases h with _ | _ | ⟨hv, h⟩
      obtain ⟨w, hw, rfl⟩ := mem_collect_iff.mp hv
      exact ih h
    | number n => exact absurd h NumberText.not_inside
    | _ => cases h

/-- **What is read is regular.** -/
theorem read_regular {t : Text} (h : read strict t = .ok v) : Regular v := by
  obtain ⟨w, -, rfl⟩ := read_spells rfl h
  exact fun k u hu => Written.isRegular_of_inside hu

/-! ## The order of members -/

/-- The members of one object, which lies anywhere inside, come in another order. -/
inductive Reorders : Json → Json → Prop where
  | here {ms ns : List (Text × Json)} (h : ms.Perm ns) : Reorders (.obj ms) (.obj ns)
  | item {v w : Json} (before after : List Json) (h : Reorders v w) :
      Reorders (.arr (before ++ v :: after)) (.arr (before ++ w :: after))
  | member {v w : Json} (k : Text) (before after : List (Text × Json)) (h : Reorders v w) :
      Reorders (.obj (before ++ (k, v) :: after)) (.obj (before ++ (k, w) :: after))

theorem mem_replaced {α : Type} {before after : List α} {b x : α} (a : α)
    (h : x ∈ before ++ b :: after) : x = b ∨ x ∈ before ++ a :: after := by
  rcases List.mem_append.mp h with hbefore | hbehind
  · exact .inr (List.mem_append_left _ hbefore)
  · rcases List.mem_cons.mp hbehind with rfl | hafter
    · exact .inl rfl
    · exact .inr (List.mem_append_right _ (List.mem_cons_of_mem _ hafter))

theorem forall_mem_replaced {α : Type} {p : α → Prop} {before after : List α} {a b : α}
    (h : ∀ x ∈ before ++ a :: after, p x) (hb : p a → p b) : ∀ x ∈ before ++ b :: after, p x := by
  intro x hx
  rcases mem_replaced a hx with rfl | hkept
  · exact hb (h a (List.mem_append_right _ List.mem_cons_self))
  · exact h x hkept

/-- To reorder members leaves a value regular. -/
theorem Regular.of_reorders (hv : Regular v) (h : Reorders v w) : Regular w := by
  induction h with
  | here h =>
    obtain ⟨hnodup, hmembers⟩ := regular_obj.mp hv
    exact regular_obj.mpr ⟨(h.map Prod.fst).nodup_iff.mp hnodup,
      fun m hm => hmembers m (h.mem_iff.mpr hm)⟩
  | item before after h ih =>
    exact regular_arr.mpr (forall_mem_replaced (regular_arr.mp hv) ih)
  | member k before after h ih =>
    obtain ⟨hnodup, hmembers⟩ := regular_obj.mp hv
    refine regular_obj.mpr ⟨?_, forall_mem_replaced hmembers ih⟩
    rwa [List.map_append, List.map_cons] at hnodup ⊢

/-- **The order of members does not matter**, whichever object it is. -/
theorem Regular.same_of_reorders (hv : Regular v) (h : Reorders v w) : Same v w := by
  induction h with
  | @here ms ns h =>
    obtain ⟨hnodup, hmembers⟩ := regular_obj.mp hv
    refine .obj (fun k => (h.map Prod.fst).mem_iff) fun k u u' hu hu' => ?_
    obtain rfl := Keyed.value_unique hnodup hu (h.mem_iff.mpr hu')
    exact (hmembers _ hu).same_self
  | @item v w before after h ih =>
    have hitems := regular_arr.mp hv
    have hbefore : List.Forall₂ Same before before :=
      List.forall₂_same.mpr fun u hu => (hitems u (List.mem_append_left _ hu)).same_self
    have hafter : List.Forall₂ Same after after := List.forall₂_same.mpr fun u hu =>
      (hitems u (List.mem_append_right _ (List.mem_cons_of_mem v hu))).same_self
    have hchanged : Same v w :=
      ih (hitems v (List.mem_append_right _ List.mem_cons_self))
    obtain ⟨hlength, hget⟩ := List.forall₂_iff_get.mp
      (List.rel_append hbefore (List.Forall₂.cons hchanged hafter))
    exact .arr hlength hget
  | @member v w k before after h ih =>
    obtain ⟨hnodup, hmembers⟩ := regular_obj.mp hv
    refine .obj (fun k' => ?_) fun k' u u' hu hu' => ?_
    · rw [List.map_append, List.map_append, List.map_cons, List.map_cons]
    · rcases mem_replaced (k, v) hu' with heq | hkept
      · obtain ⟨rfl, rfl⟩ := Prod.mk.inj heq
        have hchanged : (k', v) ∈ before ++ (k', v) :: after :=
          List.mem_append_right before List.mem_cons_self
        obtain rfl := Keyed.value_unique hnodup hu hchanged
        exact ih (hmembers _ hchanged)
      · obtain rfl := Keyed.value_unique hnodup hu hkept
        exact (hmembers _ hu).same_self

end Json

end Deeplink

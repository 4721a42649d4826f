import Deeplink.Json
import Deeplink.Json.Reader
import Mathlib.Data.List.Nodup

/-!
# Members of objects

- `Keyed.map_fst_set`: to set the value of a key changes the keys only if it is a new one.
- `Keyed.mem_iff_lookup`, `Keyed.eq_of_lookup`: where keys are different, the value of each key is
  all there is to know.
- `Json.collect_eq_self`: members with different keys are what they are collected to.
- `Json.collect_nodup`: collected members have different keys.
- `Json.readText_eq`: a text is its value, with nothing behind it.
- `Json.read_obj_nodup`: so have the members of an object that has been read.
-/

namespace Deeplink

/-! ## Keys -/

namespace Keyed

variable {κ α : Type} {key : κ} {xs : List (κ × α)}

section Set

variable [DecidableEq κ]

/-- To set a key adds it at the end, or leaves all keys where they are. -/
theorem map_fst_set (key : κ) (value : α) (xs : List (κ × α)) :
    (set key value xs).map Prod.fst
      = if key ∈ xs.map Prod.fst then xs.map Prod.fst else xs.map Prod.fst ++ [key] := by
  induction xs with
  | nil => rfl
  | cons x xs ih =>
    obtain ⟨k, v⟩ := x
    by_cases hk : k = key
    · rw [set, if_pos hk, List.map_cons, List.map_cons, if_pos (by simp [hk])]
    · have hmem : key ∈ ((k, v) :: xs).map Prod.fst ↔ key ∈ xs.map Prod.fst := by
        rw [List.map_cons, List.mem_cons, or_iff_right fun h => hk h.symm]
      rw [set, if_neg hk, List.map_cons, ih]
      by_cases h : key ∈ xs.map Prod.fst
      · rw [if_pos h, if_pos (hmem.mpr h)]
        rfl
      · rw [if_neg h, if_neg fun h' => h (hmem.mp h')]
        rfl

theorem set_eq_append (value : α) (h : key ∉ xs.map Prod.fst) :
    set key value xs = xs ++ [(key, value)] := by
  induction xs with
  | nil => rfl
  | cons x xs ih =>
    obtain ⟨k, v⟩ := x
    have hk : k ≠ key := by
      rintro rfl
      exact h List.mem_cons_self
    rw [set, if_neg hk, ih fun hmem => h (List.mem_cons_of_mem k hmem)]
    rfl

/-- Keys that are there once stay so. -/
theorem set_nodup (value : α) (h : (xs.map Prod.fst).Nodup) :
    ((set key value xs).map Prod.fst).Nodup := by
  rw [map_fst_set]
  split
  · exact h
  · next hkey => exact List.nodup_append.mpr ⟨h, List.nodup_singleton key,
      fun k hk l hl heq => hkey (List.mem_singleton.mp hl ▸ heq ▸ hk)⟩

end Set

section Lookup

variable [BEq κ]

theorem lookup_map {β : Type} (f : α → β) (key : κ) (xs : List (κ × α)) :
    (xs.map (Prod.map id f)).lookup key = (xs.lookup key).map f := by
  induction xs with
  | nil => rfl
  | cons x xs ih =>
    obtain ⟨k, v⟩ := x
    rw [List.map_cons, List.lookup_cons, List.lookup_cons, ih]
    show (match key == k with | true => some (f v) | false => _) = _
    cases key == k with
    | true => rfl
    | false => rfl

variable [LawfulBEq κ] {ys : List (κ × α)} {value : α}

theorem lookup_eq_none (h : key ∉ xs.map Prod.fst) : xs.lookup key = none := by
  refine List.lookup_eq_none_iff.mpr fun x hx => bne_iff_ne.mpr ?_
  rintro rfl
  exact h (List.mem_map_of_mem hx)

/-- Where keys are different, each pair gives the value of its key. -/
theorem mem_iff_lookup (h : (xs.map Prod.fst).Nodup) :
    (key, value) ∈ xs ↔ xs.lookup key = some value := by
  induction xs with
  | nil => exact ⟨nofun, nofun⟩
  | cons x xs ih =>
    obtain ⟨k, v⟩ := x
    obtain ⟨hk, hrest⟩ := List.nodup_cons.mp h
    rcases eq_or_ne key k with rfl | hne
    · have hnot : (key, value) ∉ xs := fun hmem => hk (List.mem_map.mpr ⟨_, hmem, rfl⟩)
      rw [List.lookup_cons_self, List.mem_cons, or_iff_left hnot, Prod.mk.injEq,
        and_iff_right rfl, Option.some.injEq, eq_comm]
    · have hpair : (key, value) ≠ (k, v) := fun heq => hne (Prod.mk.inj heq).1
      rw [List.lookup_cons, beq_false_of_ne hne, List.mem_cons, or_iff_right hpair]
      exact ih hrest

/-- If keys are there once, each has one value. -/
theorem value_unique {value' : α} (h : (xs.map Prod.fst).Nodup) (hv : (key, value) ∈ xs)
    (hv' : (key, value') ∈ xs) : value = value' := by
  rw [mem_iff_lookup h] at hv hv'
  exact Option.some.inj (hv.symm.trans hv')

/-- Where keys are different, pairs are known from the order of the keys and the value of each. -/
theorem eq_of_lookup (hkeys : xs.map Prod.fst = ys.map Prod.fst)
    (hnodup : (xs.map Prod.fst).Nodup) (hlookup : ∀ k, xs.lookup k = ys.lookup k) : xs = ys := by
  induction xs generalizing ys with
  | nil => exact (List.map_eq_nil_iff.mp hkeys.symm).symm
  | cons x xs ih =>
    obtain ⟨k, v⟩ := x
    cases ys with
    | nil => cases hkeys
    | cons y ys =>
      obtain ⟨k', v'⟩ := y
      obtain ⟨hk, hrest⟩ := List.cons.inj hkeys
      obtain rfl : k = k' := hk
      obtain ⟨hnot, hnodup⟩ := List.nodup_cons.mp hnodup
      have hv : v = v' := by
        have h := hlookup k
        rw [List.lookup_cons_self, List.lookup_cons_self] at h
        exact Option.some.inj h
      have hlookup' : ∀ l, xs.lookup l = ys.lookup l := by
        intro l
        rcases eq_or_ne l k with rfl | hne
        · rw [lookup_eq_none hnot, lookup_eq_none (hrest ▸ hnot)]
        · have h := hlookup l
          rwa [List.lookup_cons, List.lookup_cons, beq_false_of_ne hne] at h
      rw [hv, ih hrest hnodup hlookup']

end Lookup

end Keyed

namespace Json

/-! ## Collected members -/

/-- What has been collected, and then further pairs. -/
def collectFrom (before pairs : List (Text × Json)) : List (Text × Json) :=
  pairs.foldl (fun members (k, v) => Keyed.set k v members) before

theorem collectFrom_nodup {before : List (Text × Json)} (h : (before.map Prod.fst).Nodup)
    (pairs : List (Text × Json)) : ((collectFrom before pairs).map Prod.fst).Nodup := by
  induction pairs generalizing before with
  | nil => exact h
  | cons pair pairs ih => exact ih (Keyed.set_nodup pair.2 h)

/-- Collected members have different keys. -/
theorem collect_nodup (pairs : List (Text × Json)) : ((collect pairs).map Prod.fst).Nodup := by
  have hnil : (([] : List (Text × Json)).map Prod.fst).Nodup := List.nodup_nil
  exact collectFrom_nodup hnil pairs

/-- Pairs whose names are all different are collected as they are. -/
theorem collectFrom_eq_append {before pairs : List (Text × Json)}
    (h : ((before ++ pairs).map Prod.fst).Nodup) :
    collectFrom before pairs = before ++ pairs := by
  induction pairs generalizing before with
  | nil => exact (List.append_nil before).symm
  | cons pair pairs ih =>
    obtain ⟨k, v⟩ := pair
    have hk : k ∉ before.map Prod.fst := by
      rw [List.map_append, List.nodup_append] at h
      exact fun hmem => h.2.2 k hmem k List.mem_cons_self rfl
    show collectFrom (Keyed.set k v before) pairs = _
    rw [Keyed.set_eq_append v hk, ih (by rwa [List.append_assoc]), List.append_assoc]
    rfl

/-- Members with different keys are what they are collected to. -/
theorem collect_eq_self {members : List (Text × Json)} (h : (members.map Prod.fst).Nodup) :
    collect members = members := by
  have h : ((([] : List (Text × Json)) ++ members).map Prod.fst).Nodup := h
  exact collectFrom_eq_append h

/-- Keys come from pairs. -/
theorem mem_collectFrom {before pairs : List (Text × Json)} {k : Text}
    (h : k ∈ (collectFrom before pairs).map Prod.fst) :
    k ∈ before.map Prod.fst ∨ k ∈ pairs.map Prod.fst := by
  induction pairs generalizing before with
  | nil => exact .inl h
  | cons pair pairs ih =>
    have hset : k ∈ (collectFrom (Keyed.set pair.1 pair.2 before) pairs).map Prod.fst := h
    rcases ih hset with h | h
    · rw [Keyed.map_fst_set] at h
      split at h
      · exact .inl h
      · rcases List.mem_append.mp h with h | h
        · exact .inl h
        · exact .inr (List.mem_singleton.mp h ▸ List.mem_cons_self)
    · exact .inr (List.mem_cons_of_mem _ h)

/-! ## Objects that have been read -/

/-- Only what begins with a brace is read as an object. -/
theorem scalar_ne_obj {rules : Rules} {c after : Cursor} {members : List (Text × Json)} :
    scalar rules c ≠ .ok (.obj members, after) := by
  intro h
  unfold scalar at h
  split at h
  · next v n rest hword =>
    obtain rfl : v = .obj members := congrArg Prod.fst (Except.ok.inj h)
    unfold word? at hword
    repeat' split at hword
    all_goals cases hword
  · split at h
    · split at h
      · cases h
      · cases h
    · unfold number at h
      repeat' split at h
      all_goals cases h

/-- What goes on with a result has had one. -/
theorem ok_of_bind {α β : Type} {x : Except Fault α} {f : α → Except Fault β} {b : β}
    (h : (x >>= f) = .ok b) : ∃ a, x = .ok a ∧ f a = .ok b := by
  cases x with
  | error fault => cases h
  | ok a => exact ⟨a, rfl, h⟩

/-- An object that is read has each name once. -/
theorem value_obj_nodup {rules : Rules} {fuel depth : Nat} {c after : Cursor}
    {members : List (Text × Json)}
    (h : value rules fuel depth c = .ok (.obj members, after)) :
    (members.map Prod.fst).Nodup := by
  cases fuel with
  | zero =>
    rw [value, Cursor.fault] at h
    cases h
  | succ fuel =>
    rw [value] at h
    split at h
    · rw [Cursor.fault] at h
      cases h
    · split at h
      -- a string
      · obtain ⟨r, -, hr⟩ := ok_of_bind h
        cases hr
      · split at h
        -- an array
        · split at h
          · cases h
          · obtain ⟨r, -, hr⟩ := ok_of_bind h
            cases hr
        · split at h
          -- an object: its members have been collected
          · split at h
            · cases h
            · obtain ⟨r, -, hr⟩ := ok_of_bind h
              cases hr
              exact collect_nodup r.1
          · exact absurd h scalar_ne_obj

/-- What is done when the value of a text has been read: nothing may be left. -/
def closeText (r : Json × Cursor) : Except Fault Json :=
  if r.2.skipBlanks.rest.isEmpty then .ok r.1 else r.2.skipBlanks.fault .extra

theorem readText_eq (rules : Rules) (t : Text) :
    readText rules t =
      if t.head?.map CodePoint.toNat = some 0xFEFF then .error (.defect .byteOrderMark 0)
      else (value rules (stepsFor t) rules.depth (Cursor.mk 0 t).skipBlanks).bind closeText := by
  cases t with
  | nil => rfl
  | cons c t =>
    unfold readText
    dsimp only
    by_cases h : c.toNat = 0xFEFF
    · rw [if_pos h, if_pos (by simp [h])]
      rfl
    · rw [if_neg h, if_neg (by simp [h])]
      rfl

/-- A text that is read is read without its places. -/
theorem readText_of_read {rules : Rules} {t : Text} {v : Json} (h : read rules t = .ok v) :
    readText rules t = .ok v := by
  unfold read at h
  split at h
  · next v' hv => rw [hv, Except.ok.inj h]
  · cases h

/-- What has been read from a text is the value at its front. -/
theorem value_of_readText {rules : Rules} {t : Text} {v : Json} (h : readText rules t = .ok v) :
    ∃ after, value rules (stepsFor t) rules.depth (Cursor.mk 0 t).skipBlanks = .ok (v, after) := by
  rw [readText_eq] at h
  split at h
  · cases h
  · obtain ⟨r, hvalue, hclose⟩ := ok_of_bind h
    unfold closeText at hclose
    split at hclose
    · obtain rfl := Except.ok.inj hclose
      exact ⟨r.2, hvalue⟩
    · cases hclose

/-- The members of an object that has been read have different keys. -/
theorem read_obj_nodup {rules : Rules} {t : Text} {members : List (Text × Json)}
    (h : read rules t = .ok (.obj members)) : (members.map Prod.fst).Nodup := by
  obtain ⟨after, hvalue⟩ := value_of_readText (readText_of_read h)
  exact value_obj_nodup hvalue

end Json

end Deeplink

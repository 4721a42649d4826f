import Deeplink.Proofs.Json.Members
import Deeplink.Proofs.Json.Plain
import Deeplink.Proofs.Json.Reads
import Deeplink.Proofs.Json.StringText

/-!
# Values there and back

- `Json.Style.IsReadable`: commas and colons with blanks behind them, and no escapes for wide code
  points.
- `Json.value_write`: an exact value is read as it was written. The steps that suffice are counted
  in code points: three for each.
- `Json.read_write`: the same for a whole text.
-/

namespace Deeplink.Json

/-! ## Written values -/

/-- Commas and colons with nothing but blanks behind them, and no escapes for wide code points. -/
structure Style.IsReadable (style : Style) : Prop where
  escapesWide : style.escapesWide = false
  comma : ∃ blanks : Text, style.comma = .char ',' :: blanks ∧ blanks.all isBlank = true
  colon : ∃ blanks : Text, style.colon = .char ':' :: blanks ∧ blanks.all isBlank = true

/-- Colons and commas with a blank behind them can be read. -/
theorem Style.spaced_isReadable : Style.spaced.IsReadable where
  escapesWide := rfl
  comma := ⟨" ", rfl, rfl⟩
  colon := ⟨" ", rfl, rfl⟩

section Write

variable {style : Style} {rules : Rules}

/-- A string is written in quotation marks, and what stands between them is read back. -/
theorem Style.IsReadable.string (hstyle : style.IsReadable) (t left : Text) :
    ∃ body, style.string t ++ left = .char '"' :: body ∧ Reads Json.string body t left :=
  string_append (string_spelled hstyle.escapesWide t) left

/-- What is written has no blank at its front. -/
theorem solid_write {v : Json} (h : isExact rules.integerDigits v = true) (left : Text) :
    Solid (write style v ++ left) := by
  obtain ⟨c, t, hcons, hc⟩ := write_eq_cons style h
  rw [hcons]
  exact .of_begins hc

/-- Nothing is written as an empty text, so each value leaves steps for those behind it. -/
theorem write_length_pos (style : Style) {v : Json}
    (h : isExact rules.integerDigits v = true) : 0 < (write style v).length := by
  obtain ⟨c, t, hcons, -⟩ := write_eq_cons style h
  rw [hcons]
  exact Nat.succ_pos _

theorem isExact_of_itemsExact {digits : Nat} {v : Json} {rest : List Json}
    (h : itemsExact digits (v :: rest) = true) : isExact digits v = true := by
  rw [itemsExact, Bool.and_eq_true] at h
  exact h.1

theorem solid_writeItems {v : Json} {rest : List Json}
    (h : itemsExact rules.integerDigits (v :: rest) = true) (left : Text) :
    Solid (writeItems style (v :: rest) ++ left) := by
  obtain ⟨c, t, hcons, hc⟩ := writeItems_eq_cons style (isExact_of_itemsExact h) rest
  rw [hcons]
  exact .of_begins hc

theorem solid_writeMembers (k : Text) (v : Json) (rest : List (Text × Json)) (left : Text) :
    Solid (writeMembers style ((k, v) :: rest) ++ left) := by
  obtain ⟨t, hcons⟩ := writeMembers_eq_cons style k v rest
  rw [hcons]
  exact .of_begins rfl

mutual

/-- **An exact value is read as it was written**, if it does not lie too deep. A container takes one
step for itself and one for its first mark; the two marks around it pay for both. -/
theorem value_write (hstyle : style.IsReadable) :
    ∀ (v : Json) (fuel depth : Nat) (left : Text), isExact rules.integerDigits v = true →
      v.levels ≤ depth → 3 * (write style v).length ≤ fuel + 1 → Ends left →
      Reads (value rules (fuel + 1) depth) (write style v ++ left) v left
  | .null, _, _, _, _, _, _, _ =>
    Reads.scalar (fun offset => ⟨offset + 4, rfl⟩) (by decide) (by decide) (by decide)
  | .bool true, _, _, _, _, _, _, _ =>
    Reads.scalar (fun offset => ⟨offset + 4, rfl⟩) (by decide) (by decide) (by decide)
  | .bool false, _, _, _, _, _, _, _ =>
    Reads.scalar (fun offset => ⟨offset + 5, rfl⟩) (by decide) (by decide) (by decide)
  | .int n, _, _, _, h, _, _, hleft => value_ofInt hleft (of_decide_eq_true h)
  | .float x, _, _, _, h, _, _, _ => nomatch h
  | .str s, _, _, left, _, _, _, _ => by
    obtain ⟨body, hbody, hread⟩ := hstyle.string s left
    rw [write, hbody]
    exact hread.string
  | .arr [], fuel, depth, left, _, hlevels, hfuel, _ => by
    simp only [write, List.length_append, List.length_cons, List.length_nil] at hfuel
    rw [levels] at hlevels
    obtain ⟨steps, rfl⟩ : ∃ n, fuel = n + 1 := ⟨fuel - 1, by omega⟩
    obtain ⟨depth, rfl⟩ : ∃ n, depth = n + 1 := ⟨depth - 1, by omega⟩
    exact .arr (Reads.noItems.solid (Solid.cons rfl))
  | .arr (v :: rest), fuel, depth, left, h, hlevels, hfuel, _ => by
    simp only [write, List.length_append, List.length_cons, List.length_nil] at hfuel
    simp only [levels] at hlevels
    simp only [isExact] at h
    obtain ⟨steps, rfl⟩ : ∃ n, fuel = n + 2 := ⟨fuel - 2, by omega⟩
    obtain ⟨depth, rfl⟩ : ∃ n, depth = n + 1 := ⟨depth - 1, by omega⟩
    -- the items with the mark behind them, and what the first one begins with
    have hread := items_write hstyle v rest steps depth left h (by omega) (by omega)
    obtain ⟨c, t, hcons, hc⟩ := writeItems_eq_cons style (isExact_of_itemsExact h) rest
    have htext : write style (.arr (v :: rest)) ++ left
        = .char '[' :: (writeItems style (v :: rest) ++ .char ']' :: left) := by simp [write]
    rw [htext]
    rw [hcons] at hread ⊢
    refine .arr ((hread.someItems ?_).solid (.of_begins hc))
    rintro rfl
    cases hc
  | .obj [], fuel, depth, left, _, hlevels, hfuel, _ => by
    simp only [write, List.length_append, List.length_cons, List.length_nil] at hfuel
    rw [levels] at hlevels
    obtain ⟨steps, rfl⟩ : ∃ n, fuel = n + 1 := ⟨fuel - 1, by omega⟩
    obtain ⟨depth, rfl⟩ : ∃ n, depth = n + 1 := ⟨depth - 1, by omega⟩
    exact .obj (Reads.noMembers.solid (Solid.cons rfl))
  | .obj ((k, v) :: rest), fuel, depth, left, h, hlevels, hfuel, _ => by
    simp only [write, List.length_append, List.length_cons, List.length_nil] at hfuel
    simp only [levels] at hlevels
    rw [isExact, Bool.and_eq_true, decide_eq_true_iff] at h
    obtain ⟨steps, rfl⟩ : ∃ n, fuel = n + 2 := ⟨fuel - 2, by omega⟩
    obtain ⟨depth, rfl⟩ : ∃ n, depth = n + 1 := ⟨depth - 1, by omega⟩
    have hread := pairs_write hstyle k v rest steps depth left h.2 (by omega) (by omega)
    obtain ⟨t, hcons⟩ := writeMembers_eq_cons style k v rest
    have htext : write style (.obj ((k, v) :: rest)) ++ left
        = .char '\x7b' :: (writeMembers style ((k, v) :: rest) ++ .char '\x7d' :: left) := by
      simp [write]
    rw [htext]
    rw [hcons] at hread ⊢
    -- no name comes twice, so none of the members is lost
    have hobj := Reads.obj ((hread.someMembers (by decide)).solid (.of_begins rfl))
    rwa [collect_eq_self h.1] at hobj
termination_by v => sizeOf v

/-- The items of an array are read as they were written, one after the other. -/
theorem items_write (hstyle : style.IsReadable) :
    ∀ (v : Json) (rest : List Json) (fuel depth : Nat) (left : Text),
      itemsExact rules.integerDigits (v :: rest) = true → itemsLevels (v :: rest) ≤ depth →
      3 * (writeItems style (v :: rest)).length ≤ fuel →
      Reads (items rules (fuel + 1) depth) (writeItems style (v :: rest) ++ .char ']' :: left)
        (v :: rest) left
  | v, [], fuel, depth, left, h, hlevels, hfuel => by
    rw [itemsExact, Bool.and_eq_true] at h
    simp only [itemsLevels] at hlevels
    rw [writeItems] at hfuel ⊢
    have hpos := write_length_pos style h.1
    obtain ⟨steps, rfl⟩ : ∃ n, fuel = n + 1 := ⟨fuel - 1, by omega⟩
    have hv := value_write hstyle v steps depth (.char ']' :: left) h.1 (by omega) (by omega)
      (.mark (by decide))
    exact Reads.lastItem (b := []) hv rfl
  | v, w :: rest, fuel, depth, left, h, hlevels, hfuel => by
    obtain ⟨blanks, hcomma, hblanks⟩ := hstyle.comma
    rw [itemsExact, Bool.and_eq_true] at h
    rw [itemsLevels] at hlevels
    simp only [writeItems, hcomma, List.length_append, List.length_cons] at hfuel
    have hpos := write_length_pos style h.1
    obtain ⟨steps, rfl⟩ : ∃ n, fuel = n + 1 := ⟨fuel - 1, by omega⟩
    have hrest := items_write hstyle w rest steps depth left h.2 (by omega) (by omega)
    -- the comma ends the item, whatever kind it is of
    have hv := value_write hstyle v steps depth
      (.char ',' :: (blanks ++ (writeItems style (w :: rest) ++ .char ']' :: left)))
      h.1 (by omega) (by omega) (.mark (by decide))
    have htext : writeItems style (v :: w :: rest) ++ .char ']' :: left = write style v
        ++ .char ',' :: (blanks ++ (writeItems style (w :: rest) ++ .char ']' :: left)) := by
      simp [writeItems, hcomma]
    rw [htext]
    exact Reads.nextItem (b := []) hv rfl (hrest.blanks hblanks (solid_writeItems h.2 _))
termination_by v rest => sizeOf (v :: rest)

/-- The members of an object are read as they were written; the list of them is kept as it is. -/
theorem pairs_write (hstyle : style.IsReadable) :
    ∀ (k : Text) (v : Json) (rest : List (Text × Json)) (fuel depth : Nat) (left : Text),
      membersExact rules.integerDigits ((k, v) :: rest) = true →
      membersLevels ((k, v) :: rest) ≤ depth →
      3 * (writeMembers style ((k, v) :: rest)).length ≤ fuel →
      Reads (pairs rules (fuel + 1) depth)
        (writeMembers style ((k, v) :: rest) ++ .char '\x7d' :: left) ((k, v) :: rest) left
  | k, v, [], fuel, depth, left, h, hlevels, hfuel => by
    obtain ⟨blanks, hcolon, hblanks⟩ := hstyle.colon
    rw [membersExact, Bool.and_eq_true] at h
    rw [membersLevels] at hlevels
    simp only [writeMembers, hcolon, List.length_append, List.length_cons] at hfuel
    obtain ⟨steps, rfl⟩ : ∃ n, fuel = n + 1 := ⟨fuel - 1, by omega⟩
    have hv := value_write hstyle v steps depth (.char '\x7d' :: left) h.1 (by omega) (by omega)
      (.mark (by decide))
    obtain ⟨body, hbody, hkey⟩ :=
      hstyle.string k (.char ':' :: (blanks ++ (write style v ++ .char '\x7d' :: left)))
    have htext : writeMembers style [(k, v)] ++ .char '\x7d' :: left = .char '"' :: body := by
      rw [← hbody]
      simp [writeMembers, hcolon]
    rw [htext]
    exact Reads.lastMember (a := []) (b := []) hkey rfl
      (hv.blanks hblanks (solid_write h.1 _)) rfl
  | k, v, (l, w) :: rest, fuel, depth, left, h, hlevels, hfuel => by
    obtain ⟨blanks, hcolon, hblanks⟩ := hstyle.colon
    obtain ⟨blanks', hcomma, hblanks'⟩ := hstyle.comma
    rw [membersExact, Bool.and_eq_true] at h
    rw [membersLevels] at hlevels
    simp only [writeMembers, hcolon, hcomma, List.length_append, List.length_cons] at hfuel
    obtain ⟨steps, rfl⟩ : ∃ n, fuel = n + 1 := ⟨fuel - 1, by omega⟩
    have hrest := pairs_write hstyle l w rest steps depth left h.2 (by omega) (by omega)
    have hv := value_write hstyle v steps depth
      (.char ',' :: (blanks' ++ (writeMembers style ((l, w) :: rest) ++ .char '\x7d' :: left)))
      h.1 (by omega) (by omega) (.mark (by decide))
    obtain ⟨body, hbody, hkey⟩ := hstyle.string k (.char ':' :: (blanks ++ (write style v ++
      .char ',' :: (blanks' ++ (writeMembers style ((l, w) :: rest) ++ .char '\x7d' :: left)))))
    have htext : writeMembers style ((k, v) :: (l, w) :: rest) ++ .char '\x7d' :: left
        = .char '"' :: body := by
      rw [← hbody]
      simp [writeMembers, hcolon, hcomma]
    rw [htext]
    exact Reads.nextMember (a := []) (b := []) hkey rfl
      (hv.blanks hblanks (solid_write h.1 _)) rfl
      (hrest.blanks hblanks' (solid_writeMembers l w rest _))
termination_by k v rest => sizeOf ((k, v) :: rest)

end

/-! ## Whole texts -/

/-- **An exact value comes back from its text.** -/
theorem read_write (hstyle : style.IsReadable) {v : Json}
    (h : isExact rules.integerDigits v = true) (hlevels : v.levels ≤ rules.depth) :
    read rules (write style v) = .ok v := by
  have hvalue := value_write hstyle v (3 * (write style v).length + 2) rules.depth [] h hlevels
    (by omega) (.inl rfl)
  obtain ⟨o, ho⟩ := hvalue 0
  rw [List.append_nil] at ho
  have hsolid : Solid (write style v) := List.append_nil (write style v) ▸ solid_write h []
  obtain ⟨c, t, hcons, hc⟩ := write_eq_cons style h
  -- no value begins with the byte order mark
  have hmark : (write style v).head?.map CodePoint.toNat ≠ some 0xFEFF := by
    intro hmark
    rw [hcons] at hmark
    obtain rfl : c = '\uFEFF' := Char.ext (UInt32.toNat_inj.mp (Option.some.inj hmark))
    cases hc
  have htext : readText rules (write style v) = .ok v := by
    rw [readText_eq, if_neg hmark, skipBlanks_of_solid hsolid, stepsFor, ho]
    rfl
  rw [read, htext]

end Write

end Deeplink.Json

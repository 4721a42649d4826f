import Deeplink.Proofs.Json.Grammar
import Deeplink.Proofs.Json.NumberText

/-!
# JSON is read

What the grammar derives is read, if it does not lie too deep and has no integer with too many
digits. The steps that suffice are counted in code points: three for each.

- `Json.CompleteWith`: the readers of values and of what containers have between their marks take
  what is spelled, with so many steps.
- `Json.completeWith`: they do so however many steps there are.
- `Json.read_complete`: an element is read as a whole text.
- `Json.SpellsElement.value_unique`: no text stands for two values.
-/

namespace Deeplink.Json

/-! ## What stands around values -/

/-- No numeral goes on with a mark or with the blanks before it. -/
theorem stops_of_blank {c : CodePoint} {t : Text} (h : isBlank c = true) : Stops (c :: t) := by
  intro d hd
  obtain rfl := Option.some.inj hd
  simp only [isBlank, Bool.or_eq_true, decide_eq_true_eq] at h
  rcases h with ((rfl | rfl) | rfl) | rfl
  · exact ⟨rfl, by decide, by decide, by decide⟩
  · exact ⟨rfl, by decide, by decide, by decide⟩
  · exact ⟨rfl, by decide, by decide, by decide⟩
  · exact ⟨rfl, by decide, by decide, by decide⟩

/-- A numeral ends before blanks as well. -/
theorem Stops.blanks {blanks t : Text} (h : Stops t) (hblanks : IsBlanks blanks) :
    Stops (blanks ++ t) := by
  cases blanks with
  | nil => exact h
  | cons c blanks =>
    rw [IsBlanks, List.all_cons, Bool.and_eq_true] at hblanks
    exact stops_of_blank hblanks.1

/-- A value begins with one of its characters. -/
theorem Spells.eq_cons {t : Text} {w : Written} (h : Spells t w) :
    ∃ c rest, t = .char c :: rest ∧ begins c = true := by
  cases h with
  | number h =>
    obtain ⟨c, rest, hc, rfl | rfl⟩ := h.eq_cons
    · exact ⟨c, rest, rfl, by simp [begins, hc]⟩
    · exact ⟨_, _, rfl, rfl⟩
  | str h =>
    cases h
    exact ⟨_, _, rfl, rfl⟩
  | _ => exact ⟨_, _, rfl, rfl⟩

/-- No value begins with a blank. -/
theorem Spells.solid {t : Text} {w : Written} (h : Spells t w) (left : Text) :
    Solid (t ++ left) := by
  obtain ⟨c, rest, rfl, hc⟩ := h.eq_cons
  exact .of_begins hc

/-- No value is spelled by an empty text. -/
theorem Spells.length_pos {t : Text} {w : Written} (h : Spells t w) : 0 < t.length := by
  obtain ⟨c, rest, rfl, hc⟩ := h.eq_cons
  exact Nat.succ_pos _

/-- A text that begins with one of these characters behind its blanks. -/
def Begins (c : Char) (t : Text) : Prop :=
  ∃ blanks rest, IsBlanks blanks ∧ t = blanks ++ .char c :: rest

theorem Begins.append {c : Char} {t : Text} (h : Begins c t) (left : Text) :
    Begins c (t ++ left) := by
  obtain ⟨blanks, rest, hblanks, rfl⟩ := h
  exact ⟨blanks, rest ++ left, hblanks, List.append_assoc _ _ _⟩

/-- Behind its blanks, an element begins as its value does. -/
theorem SpellsElement.begins {t : Text} {w : Written} (h : SpellsElement t w) :
    ∃ c, begins c = true ∧ Begins c t := by
  obtain @⟨before, t, behind, w, hbefore, hspells, -⟩ := h
  obtain ⟨c, rest, rfl, hc⟩ := hspells.eq_cons
  exact ⟨c, hc, before, rest ++ behind, hbefore, rfl⟩

/-- Behind their blanks, items begin as the first of them does. -/
theorem SpellsItems.begins {t : Text} {ws : List Written} (h : SpellsItems t ws) :
    ∃ c, Json.begins c = true ∧ Begins c t := by
  cases h with
  | one h => exact h.begins
  | more h hrest =>
    obtain ⟨c, hc, ht⟩ := h.begins
    exact ⟨c, hc, ht.append _⟩

/-- Pairs begin with a quotation mark. -/
theorem SpellsPairs.begins {t : Text} {ws : List (Text × Written)} (h : SpellsPairs t ws) :
    Begins '"' t := by
  have hpair {t : Text} {pair : Text × Written} (h : SpellsPair t pair) : Begins '"' t := by
    obtain ⟨hbefore, ⟨-⟩, -, -⟩ := h
    exact ⟨_, _, hbefore, rfl⟩
  cases h with
  | one h => exact hpair h
  | more h hrest => exact (hpair h).append _

/-- The blanks are passed, and the character is the next one. -/
theorem Begins.skipBlanks {c : Char} {t : Text} (h : Begins c t) (hc : Json.begins c = true)
    (offset : Nat) : ∃ o rest, (Cursor.mk offset t).skipBlanks = ⟨o, .char c :: rest⟩ := by
  obtain ⟨blanks, rest, hblanks, rfl⟩ := h
  exact ⟨_, rest, skipBlanks_append hblanks (.of_begins hc) offset⟩

/-! ## Values -/

/-- What has been written lies within the limits of a reader. -/
structure Within (rules : Rules) (depth levels digits : Nat) : Prop where
  levels : levels ≤ depth
  digits : digits ≤ rules.integerDigits

/-- The readers of values and of what containers have between their marks take what is spelled, with
so many steps. -/
structure CompleteWith (rules : Rules) (fuel : Nat) : Prop where
  value : ∀ t w depth left, Spells t w → Within rules depth w.levels w.integerDigits →
    3 * t.length ≤ fuel → Stops left →
    Reads (value rules fuel depth) (t ++ left) w.value left
  items : ∀ t ws depth left, SpellsItems t ws →
    Within rules depth (Written.itemsLevels ws) (Written.itemsDigits ws) →
    3 * t.length + 1 ≤ fuel →
    Reads (fun c => items rules fuel depth c.skipBlanks) (t ++ .char ']' :: left)
      (Written.values ws) left
  array : ∀ t ws depth left, SpellsItems t ws →
    Within rules depth (Written.itemsLevels ws) (Written.itemsDigits ws) →
    3 * t.length + 2 ≤ fuel →
    Reads (fun c => array rules fuel depth c.skipBlanks) (t ++ .char ']' :: left)
      (Written.values ws) left
  pairs : ∀ t ws depth left, SpellsPairs t ws →
    Within rules depth (Written.pairsLevels ws) (Written.pairsDigits ws) →
    3 * t.length + 1 ≤ fuel →
    Reads (fun c => pairs rules fuel depth c.skipBlanks) (t ++ .char '\x7d' :: left)
      (Written.pairValues ws) left
  object : ∀ t ws depth left, SpellsPairs t ws →
    Within rules depth (Written.pairsLevels ws) (Written.pairsDigits ws) →
    3 * t.length + 2 ≤ fuel →
    Reads (fun c => object rules fuel depth c.skipBlanks) (t ++ .char '\x7d' :: left)
      (Written.pairValues ws) left

namespace CompleteWith

variable {rules : Rules} {fuel : Nat}

/-- Items that are spelled are read one after the other. Each takes some of the steps, which its
text pays for. -/
theorem items_succ (h : CompleteWith rules fuel) (t : Text) (ws : List Written) (depth : Nat)
    (left : Text) (hitems : SpellsItems t ws)
    (hwithin : Within rules depth (Written.itemsLevels ws) (Written.itemsDigits ws))
    (hfuel : 3 * t.length + 1 ≤ fuel + 1) :
    Reads (fun c => Json.items rules (fuel + 1) depth c.skipBlanks) (t ++ .char ']' :: left)
      (Written.values ws) left := by
  have hclose : Stops (.char ']' :: left) := Ends.stops (.mark (by decide))
  obtain ⟨hlevels, hdigits⟩ := hwithin
  cases hitems with
  | @one _ w helement =>
    obtain @⟨before, t, behind, w, hbefore, hspells, hbehind⟩ := helement
    simp only [List.length_append] at hfuel
    simp only [Written.itemsLevels, Written.itemsDigits, Nat.max_zero] at hlevels hdigits
    have hvalue := h.value t w depth (behind ++ .char ']' :: left) hspells ⟨hlevels, hdigits⟩
      (by omega) (hclose.blanks hbehind)
    have hread := (hvalue.lastItem hbehind).blanks hbefore (hspells.solid _)
    simp only [List.append_assoc]
    exact hread
  | @more _ rest w ws helement hrest =>
    obtain @⟨before, t, behind, w, hbefore, hspells, hbehind⟩ := helement
    simp only [List.length_append, List.length_cons] at hfuel
    simp only [Written.itemsLevels, Written.itemsDigits, Nat.max_le] at hlevels hdigits
    have hcomma : Stops (.char ',' :: (rest ++ .char ']' :: left)) := Ends.stops (.mark (by decide))
    have hvalue := h.value t w depth (behind ++ .char ',' :: (rest ++ .char ']' :: left)) hspells
      ⟨hlevels.1, hdigits.1⟩ (by omega) (hcomma.blanks hbehind)
    have hmore := h.items rest ws depth left hrest ⟨hlevels.2, hdigits.2⟩ (by omega)
    have hread := (hvalue.nextItem hbehind hmore).blanks hbefore (hspells.solid _)
    simp only [List.append_assoc, List.cons_append]
    exact hread

/-- Pairs that are spelled are read in the same way. -/
theorem pairs_succ (h : CompleteWith rules fuel) (t : Text) (ws : List (Text × Written))
    (depth : Nat) (left : Text) (hpairs : SpellsPairs t ws)
    (hwithin : Within rules depth (Written.pairsLevels ws) (Written.pairsDigits ws))
    (hfuel : 3 * t.length + 1 ≤ fuel + 1) :
    Reads (fun c => Json.pairs rules (fuel + 1) depth c.skipBlanks) (t ++ .char '\x7d' :: left)
      (Written.pairValues ws) left := by
  have hclose : Stops (.char '\x7d' :: left) := Ends.stops (.mark (by decide))
  obtain ⟨hlevels, hdigits⟩ := hwithin
  cases hpairs with
  | @one _ pair hpair =>
    obtain @⟨before, name, behind, t, k, w, hbefore, hname, hbehind, helement⟩ := hpair
    obtain @⟨before', t, behind', w, hbefore', hspells, hbehind'⟩ := helement
    simp only [List.length_append, List.length_cons] at hfuel
    simp only [Written.pairsLevels, Written.pairsDigits, Nat.max_zero] at hlevels hdigits
    have hvalue := h.value t w depth (behind' ++ .char '\x7d' :: left) hspells ⟨hlevels, hdigits⟩
      (by omega) (hclose.blanks hbehind')
    obtain ⟨body, hbody, hkey⟩ := string_append hname (behind ++ .char ':' :: (before' ++ (t
      ++ (behind' ++ .char '\x7d' :: left))))
    have hread := Reads.lastMember hkey hbehind (hvalue.blanks hbefore' (hspells.solid _)) hbehind'
    simp only [List.append_assoc, List.cons_append]
    rw [hbody]
    exact hread.blanks hbefore (.of_begins rfl)
  | @more _ rest pair ws hpair hrest =>
    obtain @⟨before, name, behind, t, k, w, hbefore, hname, hbehind, helement⟩ := hpair
    obtain @⟨before', t, behind', w, hbefore', hspells, hbehind'⟩ := helement
    simp only [List.length_append, List.length_cons] at hfuel
    simp only [Written.pairsLevels, Written.pairsDigits, Nat.max_le] at hlevels hdigits
    have hcomma : Stops (.char ',' :: (rest ++ .char '\x7d' :: left)) :=
      Ends.stops (.mark (by decide))
    have hvalue := h.value t w depth (behind' ++ .char ',' :: (rest ++ .char '\x7d' :: left))
      hspells ⟨hlevels.1, hdigits.1⟩ (by omega) (hcomma.blanks hbehind')
    have hmore := h.pairs rest ws depth left hrest ⟨hlevels.2, hdigits.2⟩ (by omega)
    obtain ⟨body, hbody, hkey⟩ := string_append hname (behind ++ .char ':' :: (before' ++ (t
      ++ (behind' ++ .char ',' :: (rest ++ .char '\x7d' :: left)))))
    have hread := Reads.nextMember hkey hbehind (hvalue.blanks hbefore' (hspells.solid _)) hbehind'
      hmore
    simp only [List.append_assoc, List.cons_append]
    rw [hbody]
    exact hread.blanks hbefore (.of_begins rfl)

/-- An array is closed at once or has a first item. -/
theorem array_succ (h : CompleteWith rules fuel) (t : Text) (ws : List Written) (depth : Nat)
    (left : Text) (hitems : SpellsItems t ws)
    (hwithin : Within rules depth (Written.itemsLevels ws) (Written.itemsDigits ws))
    (hfuel : 3 * t.length + 2 ≤ fuel + 1) :
    Reads (fun c => Json.array rules (fuel + 1) depth c.skipBlanks) (t ++ .char ']' :: left)
      (Written.values ws) left := by
  intro offset
  obtain ⟨o, ho⟩ := h.items t ws depth left hitems hwithin (by omega) offset
  refine ⟨o, ?_⟩
  -- the first character is none that closes the array
  obtain ⟨c, hc, ht⟩ := hitems.begins
  obtain ⟨o', rest, hskip⟩ := (ht.append (.char ']' :: left)).skipBlanks hc offset
  have hmark : CodePoint.char c ≠ .char ']' := ne_of_begins hc rfl
  simp only [hskip, Json.array, if_neg hmark] at ho ⊢
  exact ho

/-- An object is closed at once or has a first pair. -/
theorem object_succ (h : CompleteWith rules fuel) (t : Text) (ws : List (Text × Written))
    (depth : Nat) (left : Text) (hpairs : SpellsPairs t ws)
    (hwithin : Within rules depth (Written.pairsLevels ws) (Written.pairsDigits ws))
    (hfuel : 3 * t.length + 2 ≤ fuel + 1) :
    Reads (fun c => Json.object rules (fuel + 1) depth c.skipBlanks) (t ++ .char '\x7d' :: left)
      (Written.pairValues ws) left := by
  intro offset
  obtain ⟨o, ho⟩ := h.pairs t ws depth left hpairs hwithin (by omega) offset
  refine ⟨o, ?_⟩
  obtain ⟨o', rest, hskip⟩ := (hpairs.begins.append (.char '\x7d' :: left)).skipBlanks rfl offset
  have hmark : CodePoint.char '"' ≠ .char '\x7d' := by decide
  simp only [hskip, Json.object, if_neg hmark] at ho ⊢
  exact ho

/-- **One more step** suffices for a value whose text is long enough for the steps of its parts. -/
theorem value_succ (h : CompleteWith rules fuel) (t : Text) (w : Written) (depth : Nat)
    (left : Text) (hspells : Spells t w) (hwithin : Within rules depth w.levels w.integerDigits)
    (hfuel : 3 * t.length ≤ fuel + 1) (hstops : Stops left) :
    Reads (Json.value rules (fuel + 1) depth) (t ++ left) w.value left := by
  obtain ⟨hlevels, hdigits⟩ := hwithin
  cases hspells with
  | null => exact .scalar (fun offset => ⟨offset + 4, rfl⟩) (by decide) (by decide) (by decide)
  | yes => exact .scalar (fun offset => ⟨offset + 4, rfl⟩) (by decide) (by decide) (by decide)
  | no => exact .scalar (fun offset => ⟨offset + 5, rfl⟩) (by decide) (by decide) (by decide)
  | number hnumeral => exact .number hnumeral hstops hdigits
  | str hstring =>
    obtain ⟨body, hbody, hread⟩ := string_append hstring left
    rw [hbody]
    exact hread.string
  | @emptyArr blanks hblanks =>
    simp only [List.length_cons, List.length_append] at hfuel
    rw [Written.levels] at hlevels
    obtain ⟨steps, rfl⟩ : ∃ n, fuel = n + 1 := ⟨fuel - 1, by omega⟩
    obtain ⟨depth, rfl⟩ : ∃ n, depth = n + 1 := ⟨depth - 1, by omega⟩
    rw [List.cons_append, List.append_assoc]
    exact .arr (Reads.noItems.blanks hblanks (Solid.cons rfl))
  | @arr t items hitems =>
    simp only [List.length_cons, List.length_append] at hfuel
    rw [Written.levels] at hlevels
    obtain ⟨depth, rfl⟩ : ∃ n, depth = n + 1 := ⟨depth - 1, by omega⟩
    have hread := h.array t items depth left hitems ⟨by omega, hdigits⟩ (by omega)
    rw [List.cons_append, List.append_assoc]
    exact .arr hread
  | @emptyObj blanks hblanks =>
    simp only [List.length_cons, List.length_append] at hfuel
    rw [Written.levels] at hlevels
    obtain ⟨steps, rfl⟩ : ∃ n, fuel = n + 1 := ⟨fuel - 1, by omega⟩
    obtain ⟨depth, rfl⟩ : ∃ n, depth = n + 1 := ⟨depth - 1, by omega⟩
    rw [List.cons_append, List.append_assoc]
    exact .obj (Reads.noMembers.blanks hblanks (Solid.cons rfl))
  | @obj t pairs hpairs =>
    simp only [List.length_cons, List.length_append] at hfuel
    rw [Written.levels] at hlevels
    obtain ⟨depth, rfl⟩ : ∃ n, depth = n + 1 := ⟨depth - 1, by omega⟩
    have hread := h.object t pairs depth left hpairs ⟨by omega, hdigits⟩ (by omega)
    rw [List.cons_append, List.append_assoc]
    exact .obj hread

end CompleteWith

/-- **The readers are complete**, however many steps there are. -/
theorem completeWith (rules : Rules) (fuel : Nat) : CompleteWith rules fuel := by
  induction fuel with
  | zero =>
    constructor
    · intro t w depth left hspells _ hfuel
      have hpos := hspells.length_pos
      omega
    all_goals
      intro t ws depth left _ _ hfuel
      omega
  | succ fuel ih =>
    exact {
      value := ih.value_succ
      items := ih.items_succ
      array := ih.array_succ
      pairs := ih.pairs_succ
      object := ih.object_succ }

/-! ## Whole texts -/

/-- No element begins with the byte order mark. -/
theorem SpellsElement.no_mark {t : Text} {w : Written} (h : SpellsElement t w) :
    t.head?.map CodePoint.toNat ≠ some 0xFEFF := by
  obtain ⟨c, hc, blanks, rest, hblanks, rfl⟩ := h.begins
  intro hmark
  cases blanks with
  | nil =>
    obtain rfl : c = '\uFEFF' := Char.ext (UInt32.toNat_inj.mp (Option.some.inj hmark))
    cases hc
  | cons b blanks =>
    rw [IsBlanks, List.all_cons, Bool.and_eq_true] at hblanks
    have hb := hblanks.1
    simp only [isBlank, Bool.or_eq_true, decide_eq_true_eq] at hb
    rcases hb with ((rfl | rfl) | rfl) | rfl
    · cases hmark
    · cases hmark
    · cases hmark
    · cases hmark

/-- **An element is read as a whole text, and the result is what it stands for**, if it lies within
the limits. -/
theorem read_complete {rules : Rules} {t : Text} {w : Written} (h : SpellsElement t w)
    (hlevels : w.levels ≤ rules.depth) (hdigits : w.integerDigits ≤ rules.integerDigits) :
    read rules t = .ok w.value := by
  have hmark := h.no_mark
  obtain @⟨before, inside, behind, w, hbefore, hspells, hbehind⟩ := h
  have hfuel : 3 * inside.length ≤ stepsFor (before ++ (inside ++ behind)) := by
    simp only [stepsFor, List.length_append]
    omega
  have hnil : Stops [] := fun c hc => nomatch hc
  have hstops : Stops behind := List.append_nil behind ▸ hnil.blanks hbehind
  have hvalue := (completeWith rules _).value inside w rules.depth behind hspells
    ⟨hlevels, hdigits⟩ hfuel hstops
  obtain ⟨o, ho⟩ := hvalue.blanks hbefore (hspells.solid behind) 0
  have hsolid : Solid [] := fun c hc => nomatch hc
  have hskip : (Cursor.mk o (behind ++ [])).skipBlanks = ⟨o + behind.length, []⟩ :=
    skipBlanks_append hbehind hsolid o
  rw [List.append_nil] at hskip
  have htext : readText rules (before ++ (inside ++ behind)) = .ok w.value := by
    rw [readText_eq, if_neg hmark]
    dsimp only at ho
    rw [ho]
    show closeText (w.value, ⟨o, behind⟩) = _
    rw [closeText, hskip]
    rfl
  rw [read, htext]

/-- **What a text stands for is not in doubt**, however it is derived. A reader with wide limits
decides it. -/
theorem SpellsElement.value_unique {t : Text} {w w' : Written} (h : SpellsElement t w)
    (h' : SpellsElement t w') : w.value = w'.value := by
  let rules : Rules :=
    ⟨false, max w.integerDigits w'.integerDigits, max w.levels w'.levels⟩
  have hread : read rules t = .ok w.value :=
    read_complete h (Nat.le_max_left _ _) (Nat.le_max_left _ _)
  have hread' : read rules t = .ok w'.value :=
    read_complete h' (Nat.le_max_right _ _) (Nat.le_max_right _ _)
  exact Except.ok.inj (hread.symm.trans hread')

end Deeplink.Json

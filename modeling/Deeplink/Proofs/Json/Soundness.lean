import Deeplink.Proofs.Json.Grammar

/-!
# What is read is JSON

A reader that takes no names of numbers accepts nothing but what the grammar derives, and it gives
what the derivation stands for.

- `Json.Sound`: what a reader takes from the front of a text is spelled in some way, and the reader
  gives what has been written.
- `Json.SoundWith`: the readers of values and of what containers have between their marks are sound,
  with so many steps.
- `Json.soundWith`: they are sound however many steps there are.
- `Json.read_spells`: a text that has been read is an element.
-/

namespace Deeplink.Json

/-! ## Sound readers -/

/-- What is taken from the front of a text is spelled in some way, and its meaning is the result. -/
def Sound {α β : Type} (reader : Cursor → Except Fault (α × Cursor)) (spells : Text → β → Prop)
    (meaning : β → α) : Prop :=
  ∀ c a after, reader c = .ok (a, after) →
    ∃ t b, c.rest = t ++ after.rest ∧ spells t b ∧ meaning b = a

/-- Without steps nothing is read. -/
theorem Sound.of_fault {α β : Type} {reader : Cursor → Except Fault (α × Cursor)}
    {spells : Text → β → Prop} {meaning : β → α} {d : Defect} (h : ∀ c, reader c = c.fault d) :
    Sound reader spells meaning := by
  intro c a after hread
  rw [h] at hread
  cases hread

/-- What stands in front of a closing mark. -/
def Closed {β : Type} (mark : Char) (spells : Text → β → Prop) (t : Text) (b : β) : Prop :=
  ∃ inside, t = inside ++ [.char mark] ∧ spells inside b

/-- Nothing but blanks has been passed. -/
theorem skipBlanks_rest (c : Cursor) :
    ∃ blanks, IsBlanks blanks ∧ c.rest = blanks ++ c.skipBlanks.rest :=
  ⟨c.rest.takeWhile isBlank, List.all_takeWhile,
    (List.prefix_iff_eq_append.mp (List.takeWhile_prefix isBlank)).symm⟩

/-- Blanks one after the other are blanks. -/
theorem IsBlanks.append {a b : Text} (ha : IsBlanks a) (hb : IsBlanks b) : IsBlanks (a ++ b) := by
  rw [IsBlanks, List.all_append, ha, hb]
  rfl

/-! ## Words and numbers -/

/-- A word that is found stands at the front of the text. -/
theorem after?_eq {word : List Char} {t rest : Text} (h : after? word t = some rest) :
    t = Text.ofChars word ++ rest := by
  induction word generalizing t with
  | nil => exact Option.some.inj h
  | cons c word ih =>
    cases t with
    | nil => cases h
    | cons d t =>
      rw [after?] at h
      split at h
      · next hd => rw [hd, ih h]; rfl
      · cases h

/-- The three words spell their values. -/
theorem word?_spells {t rest : Text} {v : Json} {width : Nat}
    (h : word? t = some (v, width, rest)) :
    ∃ word w, t = word ++ rest ∧ Spells word w ∧ w.value = v := by
  unfold word? at h
  split at h
  · next hnull =>
    cases h
    exact ⟨_, _, after?_eq hnull, .null, rfl⟩
  · split at h
    · next htrue =>
      cases h
      exact ⟨_, _, after?_eq htrue, .yes, rfl⟩
    · split at h
      · next hfalse =>
        cases h
        exact ⟨_, _, after?_eq hfalse, .no, rfl⟩
      · cases h

/-- What is read as a number is spelled as one. -/
theorem number_sound (rules : Rules) : Sound (number rules) Spells Written.value := by
  intro c v after h
  unfold number at h
  split at h
  · cases h
  · next n rest hnumber =>
    obtain ⟨numeral, htext, hspelled⟩ := numberText?_spelled hnumber
    -- whatever kind of number it is, it has been read up to the rest
    have hread : n.value = v ∧ rest = after.rest := by
      unfold NumberText.value
      split at h
      · next hwhole =>
        split at h
        · cases h
        · cases h
          exact ⟨if_pos hwhole, rfl⟩
      · next hwhole =>
        cases h
        exact ⟨if_neg hwhole, rfl⟩
    exact ⟨numeral, .number n, hread.2 ▸ htext, .number hspelled, hread.1⟩

/-- What is read as a scalar is spelled as one, as long as no constants are allowed. -/
theorem scalar_sound {rules : Rules} (hrules : rules.constants = false) :
    Sound (scalar rules) Spells Written.value := by
  intro c v after h
  unfold scalar at h
  split at h
  · next hword =>
    cases h
    exact word?_spells hword
  · split at h
    · rw [hrules] at h
      cases h
    · exact number_sound rules c v after h

/-! ## Blanks in front -/

/-- Blanks in front make no difference. -/
def TakesBlanks {β : Type} (spells : Text → β → Prop) : Prop :=
  ∀ blanks t b, IsBlanks blanks → spells t b → spells (blanks ++ t) b

/-- A reader stays sound if it passes blanks in front of what may have them. -/
theorem Sound.blanks {α β : Type} {reader : Cursor → Except Fault (α × Cursor)}
    {spells : Text → β → Prop} {meaning : β → α} (h : Sound reader spells meaning)
    (hspells : TakesBlanks spells) : Sound (fun c => reader c.skipBlanks) spells meaning := by
  intro c a after hread
  obtain ⟨blanks, hblanks, hc⟩ := skipBlanks_rest c
  obtain ⟨t, b, htext, hb, hmeaning⟩ := h c.skipBlanks a after hread
  refine ⟨blanks ++ t, b, ?_, hspells blanks t b hblanks hb, hmeaning⟩
  rw [hc, htext, List.append_assoc]

theorem TakesBlanks.closed {β : Type} {spells : Text → β → Prop} (h : TakesBlanks spells)
    (mark : Char) : TakesBlanks (Closed mark spells) := by
  rintro blanks _ b hblanks ⟨t, rfl, hb⟩
  exact ⟨blanks ++ t, (List.append_assoc _ _ _).symm, h blanks t b hblanks hb⟩

/-- Elements, items and pairs may all have blanks in front of them. -/
theorem takesBlanks_element : TakesBlanks SpellsElement := by
  intro blanks t w hblanks h
  obtain ⟨hbefore, h, hbehind⟩ := h
  rw [← List.append_assoc]
  exact .mk (hblanks.append hbefore) h hbehind

theorem takesBlanks_items : TakesBlanks SpellsItems := by
  intro blanks t items hblanks h
  cases h with
  | one h => exact .one (takesBlanks_element _ _ _ hblanks h)
  | more h hrest =>
    rw [← List.append_assoc]
    exact .more (takesBlanks_element _ _ _ hblanks h) hrest

theorem takesBlanks_pair : TakesBlanks SpellsPair := by
  intro blanks t pair hblanks h
  obtain ⟨hbefore, hname, hbehind, h⟩ := h
  rw [← List.append_assoc]
  exact .mk (hblanks.append hbefore) hname hbehind h

theorem takesBlanks_pairs : TakesBlanks SpellsPairs := by
  intro blanks t pairs hblanks h
  cases h with
  | one h => exact .one (takesBlanks_pair _ _ _ hblanks h)
  | more h hrest =>
    rw [← List.append_assoc]
    exact .more (takesBlanks_pair _ _ _ hblanks h) hrest

/-- What a container has between its marks: blanks alone, or some entries. -/
def OrBlank {β : Type} (spells : Text → List β → Prop) (t : Text) (entries : List β) : Prop :=
  IsBlanks t ∧ entries = [] ∨ spells t entries

theorem TakesBlanks.orBlank {β : Type} {spells : Text → List β → Prop} (h : TakesBlanks spells) :
    TakesBlanks (OrBlank spells) := by
  rintro blanks t entries hblanks (⟨ht, rfl⟩ | hentries)
  · exact .inl ⟨hblanks.append ht, rfl⟩
  · exact .inr (h blanks t entries hblanks hentries)

/-! ## Values and containers -/

/-- The readers of values and of what containers have between their marks are sound, with so many
steps. -/
structure SoundWith (rules : Rules) (fuel : Nat) : Prop where
  value : ∀ depth, Sound (value rules fuel depth) Spells Written.value
  items : ∀ depth, Sound (items rules fuel depth) (Closed ']' SpellsItems) Written.values
  array : ∀ depth, Sound (array rules fuel depth) (Closed ']' (OrBlank SpellsItems))
    Written.values
  pairs : ∀ depth, Sound (pairs rules fuel depth) (Closed '\x7d' SpellsPairs) Written.pairValues
  object : ∀ depth, Sound (object rules fuel depth) (Closed '\x7d' (OrBlank SpellsPairs))
    Written.pairValues

/-- What is closed at once, or read on from the same place. -/
theorem closed_of_mark {β : Type} {spells : Text → List β → Prop} {mark : Char} {c : Cursor}
    {rest : Text} (hc : c.rest = .char mark :: rest) :
    ∃ t b, c.rest = t ++ rest ∧ Closed mark (OrBlank spells) t b ∧ b = [] :=
  ⟨[.char mark], [], hc, ⟨[], rfl, .inl ⟨rfl, rfl⟩⟩, rfl⟩

namespace SoundWith

variable {rules : Rules} {fuel : Nat}

/-- The blanks behind a value make it an element. -/
theorem element (h : SoundWith rules fuel) {depth : Nat} {c after : Cursor} {v : Json}
    (hread : Json.value rules fuel depth c = .ok (v, after)) :
    ∃ t w, c.rest = t ++ after.skipBlanks.rest ∧ SpellsElement t w ∧ w.value = v := by
  obtain ⟨behind, hbehind, hafter⟩ := skipBlanks_rest after
  obtain ⟨t, w, htext, hspells, hvalue⟩ := h.value depth c v after hread
  have helement : SpellsElement ([] ++ (t ++ behind)) w := .mk rfl hspells hbehind
  refine ⟨_, w, ?_, helement, hvalue⟩
  rw [htext, hafter, List.nil_append, List.append_assoc]

/-- The items of an array: each one is sound by the steps that are left, and the rest by induction
on these steps. -/
theorem items_succ (h : SoundWith rules fuel) (depth : Nat) :
    Sound (Json.items rules (fuel + 1) depth) (Closed ']' SpellsItems) Written.values := by
  intro c items after hread
  rw [Json.items] at hread
  obtain ⟨⟨v, behind⟩, hvalue, hread⟩ := ok_of_bind hread
  obtain ⟨t, w, htext, helement, rfl⟩ := h.element hvalue
  dsimp only at hread
  split at hread
  · cases hread
  · next mark rest hrest =>
    rw [hrest] at htext
    split at hread
    · next hmark =>
      cases hread
      refine ⟨_, [w], ?_, ⟨t, rfl, .one helement⟩, rfl⟩
      rw [htext, hmark, List.append_assoc]
      rfl
    · split at hread
      · next hmark =>
        obtain ⟨⟨more, last⟩, hmore, hread⟩ := ok_of_bind hread
        cases hread
        obtain ⟨_, ws, hmoreText, ⟨inside, rfl, hitems⟩, rfl⟩ :=
          (h.items depth).blanks (takesBlanks_items.closed ']') _ _ _ hmore
        refine ⟨_, w :: ws, ?_, ⟨_, rfl, .more helement hitems⟩, rfl⟩
        have hmoreText : rest = inside ++ [.char ']'] ++ last.rest := hmoreText
        rw [htext, hmark, hmoreText]
        simp only [List.append_assoc, List.cons_append]
      · cases hread

/-- An array may be closed at once, with nothing but blanks inside. -/
theorem array_succ (h : SoundWith rules fuel) (depth : Nat) :
    Sound (Json.array rules (fuel + 1) depth) (Closed ']' (OrBlank SpellsItems))
      Written.values := by
  intro c items after hread
  have hitems (hread : Json.items rules fuel depth c = .ok (items, after)) :
      ∃ t b, c.rest = t ++ after.rest ∧ Closed ']' (OrBlank SpellsItems) t b
        ∧ Written.values b = items := by
    obtain ⟨_, ws, htext, ⟨t, rfl, hspells⟩, hvalues⟩ := h.items depth c items after hread
    exact ⟨_, ws, htext, ⟨t, rfl, .inr hspells⟩, hvalues⟩
  rw [Json.array] at hread
  split at hread
  · exact hitems hread
  · next first rest hc =>
    split at hread
    · next hmark =>
      cases hread
      subst hmark
      obtain ⟨t, _, htext, hclosed, rfl⟩ := closed_of_mark hc
      exact ⟨t, [], htext, hclosed, rfl⟩
    · exact hitems hread

/-- A name whose opening mark has been read, and the element behind its colon. -/
theorem pair (h : SoundWith rules fuel) {depth : Nat} {c colon after : Cursor} {key rest : Text}
    {v : Json} (hkey : string c = .ok (key, colon))
    (hcolon : colon.skipBlanks.rest = .char ':' :: rest) {offset : Nat}
    (hread : Json.value rules fuel depth (Cursor.mk offset rest).skipBlanks = .ok (v, after)) :
    ∃ t w, .char '"' :: c.rest = t ++ after.skipBlanks.rest ∧ SpellsPair t (key, w)
      ∧ w.value = v := by
  obtain ⟨name, hname, hspells⟩ := string_spells hkey
  obtain ⟨behind, hbehind, hrest⟩ := skipBlanks_rest colon
  obtain ⟨before, hbefore, hblanks⟩ := skipBlanks_rest (Cursor.mk offset rest)
  obtain ⟨t, w, htext, helement, hvalue⟩ := h.element hread
  have hpair : SpellsPair ([] ++ (name ++ (behind ++ .char ':' :: (before ++ t)))) (key, w) :=
    .mk rfl hspells hbehind (takesBlanks_element before t w hbefore helement)
  refine ⟨_, w, ?_, hpair, hvalue⟩
  have hblanks : rest = before ++ (t ++ after.skipBlanks.rest) := htext ▸ hblanks
  rw [hname, hrest, hcolon, hblanks]
  simp only [List.append_assoc, List.nil_append, List.cons_append]

/-- The pairs of an object go on as items do. -/
theorem pairs_succ (h : SoundWith rules fuel) (depth : Nat) :
    Sound (Json.pairs rules (fuel + 1) depth) (Closed '\x7d' SpellsPairs)
      Written.pairValues := by
  intro c pairs after hread
  rw [Json.pairs] at hread
  split at hread
  · cases hread
  · next first nameRest hc =>
    split at hread
    · next hquote =>
      subst hquote
      obtain ⟨⟨key, colon⟩, hkey, hread⟩ := ok_of_bind hread
      dsimp only at hread
      split at hread
      · cases hread
      · next mark rest hcolon =>
        split at hread
        · next hmark =>
          subst hmark
          obtain ⟨⟨v, behind⟩, hvalue, hread⟩ := ok_of_bind hread
          obtain ⟨t, w, htext, hpair, rfl⟩ := h.pair hkey hcolon hvalue
          have htext : c.rest = t ++ behind.skipBlanks.rest := hc.trans htext
          dsimp only at hread
          split at hread
          · cases hread
          · next mark rest hrest =>
            rw [hrest] at htext
            split at hread
            · next hmark =>
              cases hread
              refine ⟨_, [(key, w)], ?_, ⟨t, rfl, .one hpair⟩, rfl⟩
              rw [htext, hmark, List.append_assoc]
              rfl
            · split at hread
              · next hmark =>
                obtain ⟨⟨more, last⟩, hmore, hread⟩ := ok_of_bind hread
                cases hread
                obtain ⟨_, ws, hmoreText, ⟨inside, rfl, hpairs⟩, rfl⟩ :=
                  (h.pairs depth).blanks (takesBlanks_pairs.closed '\x7d') _ _ _ hmore
                refine ⟨_, (key, w) :: ws, ?_, ⟨_, rfl, .more hpair hpairs⟩, rfl⟩
                have hmoreText : rest = inside ++ [.char '\x7d'] ++ last.rest := hmoreText
                rw [htext, hmark, hmoreText]
                simp only [List.append_assoc, List.cons_append]
              · cases hread
        · cases hread
    · cases hread

/-- An object may be closed at once as well. -/
theorem object_succ (h : SoundWith rules fuel) (depth : Nat) :
    Sound (Json.object rules (fuel + 1) depth) (Closed '\x7d' (OrBlank SpellsPairs))
      Written.pairValues := by
  intro c pairs after hread
  rw [Json.object] at hread
  split at hread
  · cases hread
  · next first rest hc =>
    split at hread
    · next hmark =>
      cases hread
      subst hmark
      obtain ⟨t, _, htext, hclosed, rfl⟩ := closed_of_mark hc
      exact ⟨t, [], htext, hclosed, rfl⟩
    · obtain ⟨_, ws, htext, ⟨t, rfl, hspells⟩, hvalues⟩ := h.pairs depth c pairs after hread
      exact ⟨_, ws, htext, ⟨t, rfl, .inr hspells⟩, hvalues⟩

/-- **One more step** suffices for a value: its first character tells what it is. -/
theorem value_succ (hrules : rules.constants = false) (h : SoundWith rules fuel) (depth : Nat) :
    Sound (Json.value rules (fuel + 1) depth) Spells Written.value := by
  intro c v after hread
  rw [Json.value] at hread
  split at hread
  · cases hread
  · next first rest hc =>
    split at hread
    · next hquote =>
      -- a string
      subst hquote
      obtain ⟨⟨s, behind⟩, hstring, hread⟩ := ok_of_bind hread
      cases hread
      obtain ⟨t, htext, hspells⟩ := string_spells hstring
      exact ⟨t, .str s, hc.trans htext, .str hspells, rfl⟩
    · split at hread
      · next hmark =>
        -- an array
        subst hmark
        split at hread
        · cases hread
        · obtain ⟨⟨items, behind⟩, harray, hread⟩ := ok_of_bind hread
          cases hread
          obtain ⟨_, ws, htext, ⟨t, rfl, hitems⟩, rfl⟩ :=
            (h.array _).blanks (takesBlanks_items.orBlank.closed ']') _ _ _ harray
          refine ⟨.char '[' :: (t ++ [.char ']']), .arr ws, ?_, ?_, rfl⟩
          · rw [hc]
            exact congrArg (CodePoint.char '[' :: ·) htext
          · rcases hitems with ⟨ht, rfl⟩ | hitems
            · exact .emptyArr ht
            · exact .arr hitems
      · split at hread
        · next hmark =>
          -- an object
          subst hmark
          split at hread
          · cases hread
          · obtain ⟨⟨pairs, behind⟩, hobject, hread⟩ := ok_of_bind hread
            cases hread
            obtain ⟨_, ws, htext, ⟨t, rfl, hpairs⟩, rfl⟩ :=
              (h.object _).blanks (takesBlanks_pairs.orBlank.closed '\x7d') _ _ _ hobject
            refine ⟨.char '\x7b' :: (t ++ [.char '\x7d']), .obj ws, ?_, ?_, rfl⟩
            · rw [hc]
              exact congrArg (CodePoint.char '\x7b' :: ·) htext
            · rcases hpairs with ⟨ht, rfl⟩ | hpairs
              · exact .emptyObj ht
              · exact .obj hpairs
        · exact scalar_sound hrules c v after hread

end SoundWith

/-- **The readers are sound**, however many steps there are. -/
theorem soundWith {rules : Rules} (hrules : rules.constants = false) (fuel : Nat) :
    SoundWith rules fuel := by
  induction fuel with
  | zero =>
    exact {
      value := fun depth => .of_fault fun c => by rw [value]
      items := fun depth => .of_fault fun c => by rw [items]
      array := fun depth => .of_fault fun c => by rw [array]
      pairs := fun depth => .of_fault fun c => by rw [pairs]
      object := fun depth => .of_fault fun c => by rw [object] }
  | succ fuel ih =>
    exact {
      value := ih.value_succ hrules
      items := ih.items_succ
      array := ih.array_succ
      pairs := ih.pairs_succ
      object := ih.object_succ }

/-- **A text that has been read is an element, and the result is what it stands for.** -/
theorem read_spells {rules : Rules} (hrules : rules.constants = false) {t : Text} {v : Json}
    (h : read rules t = .ok v) : ∃ w, SpellsElement t w ∧ w.value = v := by
  have htext := readText_of_read h
  rw [readText_eq] at htext
  split at htext
  · cases htext
  · obtain ⟨⟨v', after⟩, hvalue, hclose⟩ := ok_of_bind htext
    unfold closeText at hclose
    split at hclose
    · next hend =>
      obtain rfl := Except.ok.inj hclose
      obtain ⟨blanks, hblanks, ht⟩ := skipBlanks_rest (Cursor.mk 0 t)
      obtain ⟨inside, w, hinside, helement, rfl⟩ := (soundWith hrules _).element hvalue
      have hend : after.skipBlanks.rest = [] := List.isEmpty_iff.mp hend
      have ht : t = blanks ++ inside := by
        rw [hend, List.append_nil] at hinside
        exact hinside ▸ ht
      exact ⟨w, ht ▸ takesBlanks_element blanks inside w hblanks helement, rfl⟩
    · cases hclose

end Deeplink.Json

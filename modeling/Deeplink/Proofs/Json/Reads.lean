import Deeplink.Json.Reader

/-!
# Readers

How a reader goes on, one lemma for each way, whatever stands behind what it reads.

- `Json.Reads`: wherever a text stands, a reader finds a value at its front and leaves the rest.
- `Json.Reads.blanks`: blanks in front of it are passed.
- `Json.Reads.arr`, `Json.Reads.nextItem`: an array by its items, and the items one by one.
- `Json.Reads.obj`, `Json.Reads.nextMember`: an object by its members, and the members one by one.
-/

namespace Deeplink.Json

/-! ## Readers -/

/-- Wherever the text stands, the reader finds `a` at its front, and then there is `left`. -/
def Reads {α : Type} (reader : Cursor → Except Fault (α × Cursor)) (t : Text) (a : α)
    (left : Text) : Prop :=
  ∀ offset, ∃ o, reader ⟨offset, t⟩ = .ok (a, ⟨o, left⟩)

/-- The text does not begin with a blank. -/
def Solid (t : Text) : Prop := ∀ c ∈ t.head?, isBlank c = false

theorem Solid.cons {c : CodePoint} {t : Text} (h : isBlank c = false) : Solid (c :: t) := by
  intro d hd
  obtain rfl := Option.mem_some.mp hd
  exact h

/-- The characters that a value may begin with. -/
def begins (c : Char) : Bool :=
  c.isDigit || c = '"' || c = '[' || c = '\x7b' || c = 'n' || c = 't' || c = 'f' || c = '-'

/-- A character that begins a value is none of those that do not. -/
theorem ne_of_begins {c d : Char} (hc : begins c = true) (hd : begins d = false) :
    CodePoint.char c ≠ .char d := by
  intro h
  rw [CodePoint.char.inj h, hd] at hc
  cases hc

/-- No value begins with a blank. -/
theorem Solid.of_begins {c : Char} {t : Text} (h : begins c = true) : Solid (.char c :: t) := by
  refine .cons ?_
  simp only [isBlank, decide_eq_false (ne_of_begins h (by decide : begins ' ' = false)),
    decide_eq_false (ne_of_begins h (by decide : begins '\t' = false)),
    decide_eq_false (ne_of_begins h (by decide : begins '\n' = false)),
    decide_eq_false (ne_of_begins h (by decide : begins '\r' = false)), Bool.or_self]

/-- The blanks at the front are passed, and no more. -/
theorem skipBlanks_append {blanks t : Text} (hblanks : blanks.all isBlank = true) (ht : Solid t)
    (offset : Nat) :
    (Cursor.mk offset (blanks ++ t)).skipBlanks = ⟨offset + blanks.length, t⟩ := by
  have htake : t.takeWhile isBlank = [] := by
    cases t with
    | nil => rfl
    | cons c t => exact List.takeWhile_cons_of_neg (by simp [ht c rfl])
  have hall : (blanks ++ t).takeWhile isBlank = blanks := by
    rw [List.takeWhile_append_of_pos (List.all_eq_true.mp hblanks), htake, List.append_nil]
  simp only [Cursor.skipBlanks, hall, List.drop_left]

/-- Where no blank is, none is passed. -/
theorem skipBlanks_of_solid {t : Text} (ht : Solid t) (offset : Nat) :
    (Cursor.mk offset t).skipBlanks = ⟨offset, t⟩ := by
  show (Cursor.mk offset ([] ++ t)).skipBlanks = ⟨offset + List.length ([] : Text), t⟩
  exact skipBlanks_append rfl ht offset

section Blanks

variable {α : Type} {reader : Cursor → Except Fault (α × Cursor)} {a : α} {t left : Text}

/-- Blanks in front of a text that is read are passed. -/
theorem Reads.blanks {blanks : Text} (h : Reads reader t a left)
    (hblanks : blanks.all isBlank = true) (ht : Solid t) :
    Reads (fun c => reader c.skipBlanks) (blanks ++ t) a left := by
  intro offset
  obtain ⟨o, ho⟩ := h (offset + blanks.length)
  refine ⟨o, ?_⟩
  dsimp only
  rw [skipBlanks_append hblanks ht, ho]

/-- There need not be any. -/
theorem Reads.solid (h : Reads reader t a left) (ht : Solid t) :
    Reads (fun c => reader c.skipBlanks) t a left := by
  have hnil : Reads (fun c => reader c.skipBlanks) ([] ++ t) a left := h.blanks rfl ht
  exact hnil

end Blanks

/-! ## Values -/

section Values

variable {rules : Rules} {fuel depth : Nat} {t left : Text} {c : Char}

/-- A value that is neither a string nor a container is read as a scalar. -/
theorem Reads.scalar {v : Json} (h : Reads (scalar rules) (.char c :: t) v left)
    (hquote : c ≠ '"') (hbracket : c ≠ '[') (hbrace : c ≠ '\x7b') :
    Reads (value rules (fuel + 1) depth) (.char c :: t) v left := by
  intro offset
  obtain ⟨o, ho⟩ := h offset
  refine ⟨o, ?_⟩
  rw [value]
  simp only [CodePoint.char.injEq, hquote, hbracket, hbrace, if_false]
  exact ho

/-- A quotation mark opens a string. -/
theorem Reads.string {s : Text} (h : Reads string t s left) :
    Reads (value rules (fuel + 1) depth) (.char '"' :: t) (.str s) left := by
  intro offset
  obtain ⟨o, ho⟩ := h (offset + 1)
  refine ⟨o, ?_⟩
  rw [value]
  simp only [if_true, Cursor.advance, ho]
  rfl

/-- A bracket opens an array, which uses up one level. Blanks may follow. -/
theorem Reads.arr {items : List Json}
    (h : Reads (fun c => array rules fuel depth c.skipBlanks) t items left) :
    Reads (value rules (fuel + 1) (depth + 1)) (.char '[' :: t) (.arr items) left := by
  intro offset
  obtain ⟨o, ho⟩ := h (offset + 1)
  refine ⟨o, ?_⟩
  rw [value]
  simp only [CodePoint.char.injEq, Char.reduceEq, if_false, if_true, Cursor.advance, ho]
  rfl

/-- A brace opens an object, which uses up one level as well. Of members with one name the last
gives the value. -/
theorem Reads.obj {members : List (Text × Json)}
    (h : Reads (fun c => object rules fuel depth c.skipBlanks) t members left) :
    Reads (value rules (fuel + 1) (depth + 1)) (.char '\x7b' :: t) (.obj (collect members))
      left := by
  intro offset
  obtain ⟨o, ho⟩ := h (offset + 1)
  refine ⟨o, ?_⟩
  rw [value]
  simp only [CodePoint.char.injEq, Char.reduceEq, if_false, if_true, Cursor.advance, ho]
  rfl

/-! ## Items -/

/-- A closing bracket is the end of an array without items. -/
theorem Reads.noItems : Reads (array rules (fuel + 1) depth) (.char ']' :: left) [] left := by
  intro offset
  refine ⟨offset + 1, ?_⟩
  rw [array]
  exact if_pos rfl

/-- Anything but a closing bracket is the first item of an array. -/
theorem Reads.someItems {vs : List Json} (h : Reads (items rules fuel depth) (.char c :: t) vs left)
    (hc : c ≠ ']') : Reads (array rules (fuel + 1) depth) (.char c :: t) vs left := by
  intro offset
  obtain ⟨o, ho⟩ := h offset
  refine ⟨o, ?_⟩
  rw [array]
  simp only [CodePoint.char.injEq, hc, if_false]
  exact ho

section Items

variable {v : Json} {b t' : Text}

/-- The last item has the closing bracket behind it, perhaps after blanks. -/
theorem Reads.lastItem (h : Reads (value rules fuel depth) t v (b ++ .char ']' :: left))
    (hb : b.all isBlank = true) : Reads (items rules (fuel + 1) depth) t [v] left := by
  intro offset
  obtain ⟨o, ho⟩ := h offset
  refine ⟨o + b.length + 1, ?_⟩
  rw [items, ho]
  simp only [bind, Except.bind, skipBlanks_append hb (Solid.cons (c := .char ']') rfl), if_true]
  rfl

/-- Every item but the last has a comma behind it, perhaps after blanks. -/
theorem Reads.nextItem {vs : List Json}
    (h : Reads (value rules fuel depth) t v (b ++ .char ',' :: t')) (hb : b.all isBlank = true)
    (h' : Reads (fun c => items rules fuel depth c.skipBlanks) t' vs left) :
    Reads (items rules (fuel + 1) depth) t (v :: vs) left := by
  intro offset
  obtain ⟨o, ho⟩ := h offset
  obtain ⟨o', ho'⟩ := h' (o + b.length + 1)
  refine ⟨o', ?_⟩
  rw [items, ho]
  simp only [bind, Except.bind, skipBlanks_append hb (Solid.cons (c := .char ',') rfl),
    CodePoint.char.injEq, Char.reduceEq, if_false, if_true, Cursor.advance, ho']
  rfl

end Items

/-! ## Members -/

theorem Reads.noMembers :
    Reads (object rules (fuel + 1) depth) (.char '\x7d' :: left) [] left := by
  intro offset
  refine ⟨offset + 1, ?_⟩
  rw [object]
  exact if_pos rfl

/-- An object that is not closed at once has a first member, which is no brace. -/
theorem Reads.someMembers {members : List (Text × Json)}
    (h : Reads (pairs rules fuel depth) (.char c :: t) members left) (hc : c ≠ '\x7d') :
    Reads (object rules (fuel + 1) depth) (.char c :: t) members left := by
  intro offset
  obtain ⟨o, ho⟩ := h offset
  refine ⟨o, ?_⟩
  rw [object]
  simp only [CodePoint.char.injEq, hc, if_false]
  exact ho

section Pairs

variable {key : Text} {v : Json} {a b t' t'' : Text}

/-- A member is a name, a colon and a value, with blanks around the colon. The last one has the
closing brace behind it. -/
theorem Reads.lastMember (hkey : Reads Json.string t key (a ++ .char ':' :: t'))
    (ha : a.all isBlank = true)
    (h : Reads (fun c => value rules fuel depth c.skipBlanks) t' v (b ++ .char '\x7d' :: left))
    (hb : b.all isBlank = true) :
    Reads (pairs rules (fuel + 1) depth) (.char '"' :: t) [(key, v)] left := by
  intro offset
  obtain ⟨o, ho⟩ := hkey (offset + 1)
  obtain ⟨o', ho'⟩ := h (o + a.length + 1)
  refine ⟨o' + b.length + 1, ?_⟩
  rw [pairs]
  simp only [bind, Except.bind, Cursor.advance, if_true, ho,
    skipBlanks_append ha (Solid.cons (c := .char ':') rfl), ho',
    skipBlanks_append hb (Solid.cons (c := .char '\x7d') rfl)]
  rfl

/-- Every member but the last has a comma behind it, perhaps after blanks. -/
theorem Reads.nextMember {members : List (Text × Json)}
    (hkey : Reads Json.string t key (a ++ .char ':' :: t')) (ha : a.all isBlank = true)
    (h : Reads (fun c => value rules fuel depth c.skipBlanks) t' v (b ++ .char ',' :: t''))
    (hb : b.all isBlank = true)
    (h' : Reads (fun c => pairs rules fuel depth c.skipBlanks) t'' members left) :
    Reads (pairs rules (fuel + 1) depth) (.char '"' :: t) ((key, v) :: members) left := by
  intro offset
  obtain ⟨o, ho⟩ := hkey (offset + 1)
  obtain ⟨o', ho'⟩ := h (o + a.length + 1)
  obtain ⟨o'', ho''⟩ := h' (o' + b.length + 1)
  refine ⟨o'', ?_⟩
  rw [pairs]
  simp only [bind, Except.bind, Cursor.advance, if_true, ho,
    skipBlanks_append ha (Solid.cons (c := .char ':') rfl), ho',
    skipBlanks_append hb (Solid.cons (c := .char ',') rfl), CodePoint.char.injEq, Char.reduceEq,
    if_false, ho'']
  rfl

end Pairs

end Values

end Deeplink.Json

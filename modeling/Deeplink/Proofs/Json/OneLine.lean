import Deeplink.Proofs.Json.Plain
import Deeplink.Proofs.Json.StringText

/-!
# One line

What is written stands on one line, whatever is in it: line breaks and other controls are escaped.

- `Text.isOneLine`: texts without code points below `U+0020`.
- `Json.string_isOneLine`: a string is written as such a text, whatever its own code points are.
- `Json.write_isOneLine`: so is every exact value, if commas and colons are.
-/

namespace Deeplink

namespace Text

/-- A text without code points below `U+0020`; line breaks are among them. -/
def isOneLine (t : Text) : Bool := t.all fun c => 0x20 ≤ c.toNat

@[simp] theorem isOneLine_append (s t : Text) :
    isOneLine (s ++ t) = (isOneLine s && isOneLine t) := List.all_append

@[simp] theorem isOneLine_cons (c : CodePoint) (t : Text) :
    isOneLine (c :: t) = (decide (0x20 ≤ c.toNat) && isOneLine t) := List.all_cons

/-- What stands on one line has no controls. -/
theorem isOneLine_iff {t : Text} : t.isOneLine = true ↔ ∀ c ∈ t, 0x20 ≤ c.toNat := by
  simp only [isOneLine, List.all_eq_true, decide_eq_true_eq]

/-- Digits are no controls. -/
theorem isOneLine_ofNat (n : Nat) : isOneLine (ofNat n) = true := by
  refine isOneLine_iff.mpr fun c hc => ?_
  obtain ⟨d, hd, rfl⟩ := List.mem_map.mp hc
  have hdigit := Json.isDigit_of_mem_toDigits hd
  have hzero : '0'.toNat ≤ d.toNat := (Char.isDigit_iff_toNat.mp hdigit).1
  exact Nat.le_trans (by decide) hzero

end Text

namespace Json

variable {style : Style}

/-- A letter that stands for a code point after a backslash is no control. -/
theorem le_of_shortEscape? {c letter : Char} (h : shortEscape? c = some letter) :
    0x20 ≤ letter.toNat := by
  unfold shortEscape? at h
  repeat' split at h
  all_goals cases h
  all_goals decide

/-- An escape is written with digits and letters only. -/
theorem unitEscape_isOneLine {n : Nat} (h : n < 0x20) : (unitEscape n).isOneLine = true := by
  have hall : ∀ i : Fin 0x20, (unitEscape i).isOneLine = true := by decide
  exact hall ⟨n, h⟩

/-- **One code point**: it is a letter after a backslash, digits after one, or no control. -/
theorem inString_isOneLine (hstyle : style.escapesWide = false) (c : CodePoint) :
    (style.inString c).isOneLine = true := by
  rw [Style.inString]
  cases hletter : c.char?.bind shortEscape? with
  | some letter =>
    obtain ⟨ch, -, hch⟩ := Option.bind_eq_some_iff.mp hletter
    have hle : 0x20 ≤ (CodePoint.char letter).toNat := le_of_shortEscape? hch
    rw [Text.isOneLine_cons, Text.isOneLine_cons, decide_eq_true hle]
    rfl
  | none =>
    dsimp only
    by_cases hc : c.toNat < 0x20
    · rw [if_pos hc]
      exact unitEscape_isOneLine hc
    · rw [if_neg hc, hstyle]
      show Text.isOneLine [c] = true
      rw [Text.isOneLine_cons, decide_eq_true (Nat.le_of_not_lt hc)]
      rfl

/-- **A string is written on one line**, whatever is in it. -/
theorem string_isOneLine (hstyle : style.escapesWide = false) (t : Text) :
    (style.string t).isOneLine = true := by
  have hbody : Text.isOneLine (t.flatMap style.inString) = true := by
    refine Text.isOneLine_iff.mpr fun c hc => ?_
    obtain ⟨d, -, hd⟩ := List.mem_flatMap.mp hc
    exact Text.isOneLine_iff.mp (inString_isOneLine hstyle d) c hd
  rw [Style.string, Text.isOneLine_append, Text.isOneLine_cons, hbody]
  rfl

theorem ofInt_isOneLine (n : Int) : (Text.ofInt n).isOneLine = true := by
  cases n with
  | ofNat n => exact Text.isOneLine_ofNat n
  | negSucc n =>
    rw [Text.ofInt, Text.isOneLine_cons, Text.isOneLine_ofNat]
    rfl

/-- Commas and colons without line breaks, and no escapes for wide code points. -/
structure Style.IsOneLine (style : Style) : Prop where
  escapesWide : style.escapesWide = false
  comma : style.comma.isOneLine = true
  colon : style.colon.isOneLine = true

theorem Style.spaced_isOneLine : Style.spaced.IsOneLine := ⟨rfl, rfl, rfl⟩

mutual

/-- **An exact value is written on one line.** -/
theorem write_isOneLine {digits : Nat} (hstyle : style.IsOneLine) :
    ∀ v : Json, isExact digits v = true → (write style v).isOneLine = true
  | .null, _ => rfl
  | .bool true, _ => rfl
  | .bool false, _ => rfl
  | .int n, _ => ofInt_isOneLine n
  | .float x, h => nomatch h
  | .str s, _ => string_isOneLine hstyle.escapesWide s
  | .arr items, h => by
    rw [write, Text.isOneLine_append, Text.isOneLine_cons, writeItems_isOneLine hstyle items h]
    rfl
  | .obj members, h => by
    rw [isExact, Bool.and_eq_true] at h
    rw [write, Text.isOneLine_append, Text.isOneLine_cons,
      writeMembers_isOneLine hstyle members h.2]
    rfl

/-- The items of an array are written on one line. -/
theorem writeItems_isOneLine {digits : Nat} (hstyle : style.IsOneLine) :
    ∀ items : List Json, itemsExact digits items = true →
      (writeItems style items).isOneLine = true
  | [], _ => rfl
  | [v], h => by
    rw [itemsExact, Bool.and_eq_true] at h
    exact write_isOneLine hstyle v h.1
  | v :: w :: rest, h => by
    rw [itemsExact, Bool.and_eq_true] at h
    rw [writeItems, Text.isOneLine_append, Text.isOneLine_append, write_isOneLine hstyle v h.1,
      hstyle.comma, writeItems_isOneLine hstyle _ h.2]
    rfl

/-- The members of an object are written on one line, with their names. -/
theorem writeMembers_isOneLine {digits : Nat} (hstyle : style.IsOneLine) :
    ∀ members : List (Text × Json), membersExact digits members = true →
      (writeMembers style members).isOneLine = true
  | [], _ => rfl
  | [(k, v)], h => by
    rw [membersExact, Bool.and_eq_true] at h
    simp only [writeMembers, Text.isOneLine_append, string_isOneLine hstyle.escapesWide k,
      hstyle.colon, write_isOneLine hstyle v h.1, Bool.and_self]
  | (k, v) :: m :: rest, h => by
    rw [membersExact, Bool.and_eq_true] at h
    simp only [writeMembers, Text.isOneLine_append, string_isOneLine hstyle.escapesWide k,
      hstyle.colon, hstyle.comma, write_isOneLine hstyle v h.1,
      writeMembers_isOneLine hstyle _ h.2, Bool.and_self]

end

end Json

end Deeplink

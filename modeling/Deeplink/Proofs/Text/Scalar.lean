import Deeplink.Json.Writer
import Deeplink.Utf8

/-!
# Texts without surrogates

- `Text.isScalar_iff_ofChars`: a text without surrogates is one of scalar values.
- `Utf8.firstSurrogates?_eq_none_iff`: only these texts can be encoded.
- `Json.Style.string_isScalar`: to write a string brings no surrogates into it.
- `Json.Style.string_isScalar_eq`: if they are not escaped, it takes none out of it either.
-/

namespace Deeplink

namespace Text

@[simp] theorem isScalar_append (s t : Text) :
    isScalar (s ++ t) = (s.isScalar && t.isScalar) := List.all_append

@[simp] theorem isScalar_cons_char (c : Char) (t : Text) :
    isScalar (.char c :: t) = t.isScalar := Bool.true_and _

@[simp] theorem isScalar_ofChars (cs : List Char) : isScalar (ofChars cs) = true := by
  induction cs with
  | nil => rfl
  | cons c cs ih => exact ih

@[simp] theorem isScalar_ofString (s : String) : isScalar (ofString s) = true :=
  isScalar_ofChars s.toList

/-- A text stays without surrogates if each of its characters is replaced by texts without them. -/
theorem isScalar_flatMap {f : CodePoint → Text} {t : Text}
    (h : ∀ c : Char, (f (.char c)).isScalar = true) (ht : t.isScalar = true) :
    isScalar (t.flatMap f) = true := by
  induction t with
  | nil => rfl
  | cons c t ih =>
    cases c with
    | char c =>
      rw [List.flatMap_cons, isScalar_append, h c, ih ht]
      rfl
    | surrogate i => cases ht

/-- The scalar values of a text without surrogates are all that it is made of. -/
theorem ofChars_toChars {t : Text} (h : t.isScalar = true) : ofChars t.toChars = t := by
  induction t with
  | nil => rfl
  | cons c t ih =>
    cases c with
    | char c => exact congrArg (CodePoint.char c :: ·) (ih h)
    | surrogate i => cases h

end Text

/-- Only a text without surrogates has none that could be found first. -/
theorem Utf8.firstSurrogates?_eq_none_iff (t : Text) :
    firstSurrogates? t = none ↔ t.isScalar = true := by
  induction t with
  | nil => exact ⟨fun _ => rfl, fun _ => rfl⟩
  | cons c t ih =>
    cases c with
    | char c =>
      rw [Text.isScalar_cons_char, ← ih]
      unfold firstSurrogates?
      simp only [List.takeWhile_cons, CodePoint.isSurrogate, Bool.not_false, if_true,
        List.length_cons, List.drop_succ_cons]
      split <;> simp
    | surrogate i => exact ⟨(nomatch ·), (nomatch ·)⟩

namespace Json.Style

/-- A character is written without surrogates, escaped or not. -/
theorem inString_isScalar (style : Style) (c : Char) :
    (style.inString (.char c)).isScalar = true := by
  unfold inString
  cases (CodePoint.char c).char?.bind shortEscape? with
  | some letter => rfl
  | none =>
    simp only [wideEscape, unitEscape, Text.hex]
    split
    · simp
    · split
      · split <;> simp
      · rfl

/-- A text without surrogates is written without surrogates. -/
theorem string_isScalar (style : Style) {t : Text} (h : t.isScalar = true) :
    (style.string t).isScalar = true := by
  rw [string, Text.isScalar_append, Text.isScalar_cons_char,
    Text.isScalar_flatMap style.inString_isScalar h]
  rfl

/-- Where wide code points are not escaped, surrogates stay as they are. -/
theorem string_isScalar_eq {style : Style} (hwide : style.escapesWide = false) (t : Text) :
    (style.string t).isScalar = t.isScalar := by
  rw [string, Text.isScalar_append, Text.isScalar_cons_char]
  show (Text.isScalar (t.flatMap style.inString) && true) = t.isScalar
  rw [Bool.and_true]
  induction t with
  | nil => rfl
  | cons c t ih =>
    rw [List.flatMap_cons, Text.isScalar_append, ih]
    cases c with
    | char c =>
      rw [style.inString_isScalar, Text.isScalar_cons_char, Bool.true_and]
    | surrogate i =>
      have hlow : ¬ (CodePoint.surrogate i).toNat < 0x20 := by
        have hrange : (CodePoint.surrogate i).toNat = 0xD800 + i.val := rfl
        omega
      have hkept : style.inString (.surrogate i) = [.surrogate i] := by
        show (if _ then _ else if style.escapesWide && _ then _ else _) = _
        rw [if_neg hlow, hwide]
        rfl
      rw [hkept]
      rfl

end Json.Style

end Deeplink

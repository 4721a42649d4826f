import Deeplink.Proofs.Json.Reads

/-!
# Numerals

How numbers are written, apart from how they are read.

- `Json.NumberText.IsWellFormed`: at least one digit in each part, and no zeros in front of others.
- `Json.NumberText.Spelled`: the text of such parts. The exponent has one of two letters.
- `Json.numberText?_spelled`: what is read is spelled so.
- `Json.numberText?_append`: what is spelled so is read, if no numeral goes on behind it.
- `Json.NumberText.value`: an integer of any size, or the floating-point number of a numeral with a
  fraction or an exponent.
- `Json.Reads.number`: a numeral is read as its value, if it is no integer with too many digits.
-/

namespace Deeplink.Json

/-! ## The grammar -/

/-- At least one digit. -/
def IsDigits (digits : List Char) : Prop := digits ≠ [] ∧ ∀ c ∈ digits, c.isDigit = true

namespace NumberText

structure IsWellFormed (n : NumberText) : Prop where
  whole : IsDigits n.whole
  zero : n.whole.head? = some '0' → n.whole = ['0']
  fraction : ∀ digits, n.fraction = some digits → IsDigits digits
  exponent : ∀ sign digits, n.exponent = some (sign, digits) →
    (sign = none ∨ sign = some '+' ∨ sign = some '-') ∧ IsDigits digits

def signText (negative : Bool) : Text := if negative then [.char '-'] else []

def fractionText : Option (List Char) → Text
  | none => []
  | some digits => .char '.' :: Text.ofChars digits

def exponentText (letter : Char) : Option (Option Char × List Char) → Text
  | none => []
  | some (sign, digits) => .char letter :: Text.ofChars (sign.toList ++ digits)

/-- The parts one after the other, with the letter in front of the exponent. -/
def text (letter : Char) (n : NumberText) : Text :=
  signText n.negative ++ (Text.ofChars n.whole
    ++ (fractionText n.fraction ++ exponentText letter n.exponent))

/-- The text of a number. -/
inductive Spelled : Text → NumberText → Prop where
  | mk {letter : Char} {n : NumberText} (hn : n.IsWellFormed)
      (hletter : letter = 'e' ∨ letter = 'E') : Spelled (n.text letter) n

/-- A numeral without fraction and exponent is an integer. -/
def value (n : NumberText) : Json := if n.isWhole then .int n.toInt else .float n.toBinary64

/-- How many digits there are in an integer; floating-point numbers do not count. -/
def integerDigits (n : NumberText) : Nat := if n.isWhole then n.whole.length else 0

end NumberText

open NumberText

/-! ## Numerals that have been read -/

/-- Digits are taken from the front of a text. -/
theorem takeDigits_eq {t rest : Text} {digits : List Char}
    (h : Text.takeDigits t = (digits, rest)) :
    t = Text.ofChars digits ++ rest ∧ ∀ c ∈ digits, c.isDigit = true := by
  induction t generalizing digits with
  | nil =>
    obtain ⟨rfl, rfl⟩ := Prod.mk.inj h
    exact ⟨rfl, fun _ hc => nomatch hc⟩
  | cons c t ih =>
    cases c with
    | surrogate i =>
      obtain ⟨rfl, rfl⟩ := Prod.mk.inj h
      exact ⟨rfl, fun _ hc => nomatch hc⟩
    | char c =>
      rw [Text.takeDigits] at h
      split at h
      · next hc =>
        obtain ⟨rfl, rfl⟩ := Prod.mk.inj h
        obtain ⟨htext, hdigits⟩ := ih rfl
        exact ⟨congrArg (CodePoint.char c :: ·) htext, List.forall_mem_cons.mpr ⟨hc, hdigits⟩⟩
      · obtain ⟨rfl, rfl⟩ := Prod.mk.inj h
        exact ⟨rfl, fun _ hc => nomatch hc⟩

/-- If any digits are taken they are a run of digits. -/
theorem isDigits_of_takeDigits {t rest : Text} {digits : List Char}
    (h : Text.takeDigits t = (digits, rest)) (hne : digits ≠ []) :
    t = Text.ofChars digits ++ rest ∧ IsDigits digits :=
  ⟨(takeDigits_eq h).1, hne, (takeDigits_eq h).2⟩

/-- The whole part has no zero at its front, unless it is zero. -/
theorem wholePart?_eq {t rest : Text} {digits : List Char}
    (h : wholePart? t = some (digits, rest)) :
    t = Text.ofChars digits ++ rest ∧ IsDigits digits
      ∧ (digits.head? = some '0' → digits = ['0']) := by
  unfold wholePart? at h
  split at h
  · cases h
  · next more after htake =>
    -- the digits behind the zero are left in the text
    obtain ⟨rfl, rfl⟩ := Prod.mk.inj (Option.some.inj h)
    obtain ⟨rfl, -⟩ := takeDigits_eq htake
    exact ⟨rfl, ⟨by simp, by simp⟩, fun _ => rfl⟩
  · next hne hzero =>
    obtain ⟨htext, hdigits⟩ := isDigits_of_takeDigits (Option.some.inj h) (by
      rintro rfl
      exact hne _ (Option.some.inj h))
    refine ⟨htext, hdigits, fun hhead => ?_⟩
    obtain ⟨more, rfl⟩ := List.head?_eq_some_iff.mp hhead
    exact absurd (Option.some.inj h) (hzero _ _)

/-- A fraction is a point with digits behind it. A point without them is left where it is. -/
theorem fractionPart_eq {t rest : Text} {fraction : Option (List Char)}
    (h : fractionPart t = (fraction, rest)) :
    t = fractionText fraction ++ rest ∧ ∀ digits, fraction = some digits → IsDigits digits := by
  have hnone : ∀ digits, none = some digits → IsDigits digits := by
    rintro _ ⟨⟩
  unfold fractionPart at h
  split at h
  · obtain ⟨rfl, rfl⟩ := Prod.mk.inj h
    exact ⟨rfl, hnone⟩
  · split at h
    · next c t hpoint =>
      subst hpoint
      split at h
      · obtain ⟨rfl, rfl⟩ := Prod.mk.inj h
        exact ⟨rfl, hnone⟩
      · next digits after hne htake =>
        obtain ⟨rfl, rfl⟩ := Prod.mk.inj h
        obtain ⟨rfl, hdigits⟩ := isDigits_of_takeDigits htake hne
        refine ⟨rfl, ?_⟩
        rintro _ ⟨⟩
        exact hdigits
    · obtain ⟨rfl, rfl⟩ := Prod.mk.inj h
      exact ⟨rfl, hnone⟩

/-- An exponent may have a sign of either kind, or none. -/
theorem exponentSign_eq {t rest : Text} {sign : Option Char} (h : exponentSign t = (sign, rest)) :
    t = Text.ofChars sign.toList ++ rest ∧ (sign = none ∨ sign = some '+' ∨ sign = some '-') := by
  unfold exponentSign at h
  split at h
  · obtain ⟨rfl, rfl⟩ := Prod.mk.inj h
    exact ⟨rfl, .inl rfl⟩
  · split at h
    · next hplus =>
      obtain ⟨rfl, rfl⟩ := Prod.mk.inj h
      exact ⟨congrArg (· :: _) hplus, .inr (.inl rfl)⟩
    · split at h
      · next hminus =>
        obtain ⟨rfl, rfl⟩ := Prod.mk.inj h
        exact ⟨congrArg (· :: _) hminus, .inr (.inr rfl)⟩
      · obtain ⟨rfl, rfl⟩ := Prod.mk.inj h
        exact ⟨rfl, .inl rfl⟩

theorem exponentLetter_eq {c : CodePoint}
    (h : (decide (c = .char 'e') || decide (c = .char 'E')) = true) :
    ∃ letter, (letter = 'e' ∨ letter = 'E') ∧ c = .char letter := by
  rw [Bool.or_eq_true, decide_eq_true_eq, decide_eq_true_eq] at h
  rcases h with rfl | rfl
  · exact ⟨'e', .inl rfl, rfl⟩
  · exact ⟨'E', .inr rfl, rfl⟩

/-- An exponent is a letter in one of two cases, a sign or none, and digits. -/
theorem exponentPart_eq {t rest : Text} {exponent : Option (Option Char × List Char)}
    (h : exponentPart t = (exponent, rest)) :
    (∃ letter, (letter = 'e' ∨ letter = 'E') ∧ t = exponentText letter exponent ++ rest)
      ∧ ∀ sign digits, exponent = some (sign, digits) →
        (sign = none ∨ sign = some '+' ∨ sign = some '-') ∧ IsDigits digits := by
  have hnone (t : Text) : (∃ letter, (letter = 'e' ∨ letter = 'E')
        ∧ t = exponentText letter none ++ t)
      ∧ ∀ sign digits, (none : Option (Option Char × List Char)) = some (sign, digits) →
        (sign = none ∨ sign = some '+' ∨ sign = some '-') ∧ IsDigits digits :=
    ⟨⟨'e', .inl rfl, rfl⟩, fun _ _ hd => nomatch hd⟩
  unfold exponentPart at h
  split at h
  · obtain ⟨rfl, rfl⟩ := Prod.mk.inj h
    exact hnone []
  · next c t =>
    split at h
    · next hmark =>
      obtain ⟨letter, hletter, rfl⟩ := exponentLetter_eq hmark
      obtain ⟨⟨sign, behind⟩, hsplit⟩ : ∃ r, exponentSign t = r := ⟨_, rfl⟩
      obtain ⟨rfl, hsign⟩ := exponentSign_eq hsplit
      simp only [hsplit] at h
      split at h
      · obtain ⟨rfl, rfl⟩ := Prod.mk.inj h
        exact hnone _
      · next digits after hne htake =>
        obtain ⟨rfl, rfl⟩ := Prod.mk.inj h
        obtain ⟨rfl, hdigits⟩ := isDigits_of_takeDigits htake hne
        refine ⟨⟨letter, hletter, ?_⟩, ?_⟩
        · simp [exponentText, Text.ofChars]
        · rintro _ _ ⟨⟩
          exact ⟨hsign, hdigits⟩
    · obtain ⟨rfl, rfl⟩ := Prod.mk.inj h
      exact hnone _

/-- What is read behind the sign. -/
def unsignedNumber? (negative : Bool) (t : Text) : Option (NumberText × Text) :=
  match wholePart? t with
  | none => none
  | some (whole, afterWhole) =>
    let (fraction, afterFraction) := fractionPart afterWhole
    let (exponent, rest) := exponentPart afterFraction
    some (⟨negative, whole, fraction, exponent⟩, rest)

/-- A minus at the front makes a number negative. -/
theorem numberText?_minus (t : Text) :
    numberText? (.char '-' :: t) = unsignedNumber? true t := rfl

/-- Without a minus there is no sign at all. -/
theorem numberText?_unsigned {t : Text} (h : t.head? ≠ some (.char '-')) :
    numberText? t = unsignedNumber? false t := by
  cases t with
  | nil => rfl
  | cons c t =>
    have hc : c ≠ .char '-' := fun hc => h (congrArg some hc)
    simp only [numberText?, if_neg hc]
    rfl

/-- What is read as a number is well-formed and spelled like that. -/
theorem unsignedNumber?_eq {negative : Bool} {t rest : Text} {n : NumberText}
    (h : unsignedNumber? negative t = some (n, rest)) :
    n.IsWellFormed ∧ ∃ letter, (letter = 'e' ∨ letter = 'E')
      ∧ signText negative ++ t = n.text letter ++ rest := by
  unfold unsignedNumber? at h
  split at h
  · cases h
  · next whole afterWhole hwhole =>
    obtain ⟨⟨fraction, afterFraction⟩, hfraction⟩ : ∃ r, fractionPart afterWhole = r := ⟨_, rfl⟩
    obtain ⟨⟨exponent, after⟩, hexponent⟩ : ∃ r, exponentPart afterFraction = r := ⟨_, rfl⟩
    simp only [hfraction, hexponent] at h
    obtain ⟨rfl, rfl⟩ := Prod.mk.inj (Option.some.inj h)
    obtain ⟨rfl, hdigits, hzero⟩ := wholePart?_eq hwhole
    obtain ⟨rfl, hfractionDigits⟩ := fractionPart_eq hfraction
    obtain ⟨⟨letter, hletter, rfl⟩, hexponentDigits⟩ := exponentPart_eq hexponent
    refine ⟨⟨hdigits, hzero, hfractionDigits, hexponentDigits⟩, letter, hletter, ?_⟩
    simp only [NumberText.text, List.append_assoc]

/-- **What is read as a number is spelled as one.** -/
theorem numberText?_spelled {t rest : Text} {n : NumberText} (h : numberText? t = some (n, rest)) :
    ∃ numeral, t = numeral ++ rest ∧ Spelled numeral n := by
  by_cases hminus : t.head? = some (.char '-')
  · obtain ⟨t, rfl⟩ := List.head?_eq_some_iff.mp hminus
    rw [numberText?_minus] at h
    obtain ⟨hn, letter, hletter, htext⟩ := unsignedNumber?_eq h
    exact ⟨_, htext, .mk hn hletter⟩
  · rw [numberText?_unsigned hminus] at h
    obtain ⟨hn, letter, hletter, htext⟩ := unsignedNumber?_eq h
    exact ⟨_, htext, .mk hn hletter⟩

/-! ## Numerals that are read -/

/-- No numeral goes on with this. -/
def Stops (t : Text) : Prop :=
  ∀ c ∈ t.head?, c.isDigit = false ∧ c ≠ .char '.' ∧ c ≠ .char 'e' ∧ c ≠ .char 'E'

section Append

variable {rest : Text}

/-- A run of digits ends where something else follows. -/
theorem takeDigits_append {digits : List Char} (hdigits : ∀ c ∈ digits, c.isDigit = true)
    (hrest : ∀ c ∈ rest.head?, c.isDigit = false) :
    Text.takeDigits (Text.ofChars digits ++ rest) = (digits, rest) := by
  induction digits with
  | nil =>
    show Text.takeDigits rest = _
    cases rest with
    | nil => rfl
    | cons c rest =>
      cases c with
      | surrogate i => rfl
      | char c =>
        have hc : c.isDigit = false := hrest (.char c) rfl
        rw [Text.takeDigits, if_neg (Bool.eq_false_iff.mp hc)]
  | cons c digits ih =>
    obtain ⟨hc, hdigits⟩ := List.forall_mem_cons.mp hdigits
    show Text.takeDigits (.char c :: (Text.ofChars digits ++ rest)) = _
    rw [Text.takeDigits, if_pos hc, ih hdigits]

/-- A whole part is read as far as it goes, if no digit stands behind it. -/
theorem wholePart?_append {digits : List Char} (hdigits : IsDigits digits)
    (hzero : digits.head? = some '0' → digits = ['0'])
    (hrest : ∀ c ∈ rest.head?, c.isDigit = false) :
    wholePart? (Text.ofChars digits ++ rest) = some (digits, rest) := by
  rw [wholePart?, takeDigits_append hdigits.2 hrest]
  split
  · next heq =>
    obtain ⟨rfl, -⟩ := Prod.mk.inj heq
    exact absurd rfl hdigits.1
  · next more after heq =>
    obtain ⟨rfl, rfl⟩ := Prod.mk.inj heq
    obtain rfl : more = [] := (List.cons.inj (hzero rfl)).2
    rfl
  · rfl

/-- A fraction is read as far as it goes; without one, no point may stand there. -/
theorem fractionPart_append {fraction : Option (List Char)}
    (hfraction : ∀ digits, fraction = some digits → IsDigits digits)
    (hrest : ∀ c ∈ rest.head?, c.isDigit = false ∧ c ≠ .char '.') :
    fractionPart (fractionText fraction ++ rest) = (fraction, rest) := by
  cases fraction with
  | none =>
    show fractionPart rest = _
    cases rest with
    | nil => rfl
    | cons c rest => rw [fractionPart, if_neg (hrest c rfl).2]
  | some digits =>
    obtain ⟨hne, hdigits⟩ := hfraction digits rfl
    show fractionPart (.char '.' :: (Text.ofChars digits ++ rest)) = _
    rw [fractionPart, if_pos rfl, takeDigits_append hdigits fun c hc => (hrest c hc).1]
    split
    · next heq => exact absurd (Prod.mk.inj heq).1 hne
    · next heq =>
      obtain ⟨rfl, rfl⟩ := Prod.mk.inj heq
      rfl

/-- A sign is read as such, and a digit is none. -/
theorem exponentSign_append {sign : Option Char}
    (hsign : sign = none ∨ sign = some '+' ∨ sign = some '-') {digits : List Char}
    (hdigits : IsDigits digits) :
    exponentSign (Text.ofChars (sign.toList ++ digits) ++ rest)
      = (sign, Text.ofChars digits ++ rest) := by
  rcases hsign with rfl | rfl | rfl
  · obtain ⟨c, digits, rfl⟩ := List.exists_cons_of_ne_nil hdigits.1
    have hc := hdigits.2 c List.mem_cons_self
    have hne (d : Char) (hd : d.isDigit = false) : CodePoint.char c ≠ .char d := by
      rintro ⟨⟩
      rw [hc] at hd
      cases hd
    show exponentSign (.char c :: (Text.ofChars digits ++ rest)) = _
    rw [exponentSign, if_neg (hne '+' rfl), if_neg (hne '-' rfl)]
    rfl
  · rfl
  · rfl

/-- An exponent is read as far as it goes, in both cases of its letter. -/
theorem exponentPart_append {exponent : Option (Option Char × List Char)} {letter : Char}
    (hletter : letter = 'e' ∨ letter = 'E')
    (hexponent : ∀ sign digits, exponent = some (sign, digits) →
      (sign = none ∨ sign = some '+' ∨ sign = some '-') ∧ IsDigits digits)
    (hrest : Stops rest) :
    exponentPart (exponentText letter exponent ++ rest) = (exponent, rest) := by
  cases exponent with
  | none =>
    show exponentPart rest = _
    cases rest with
    | nil => rfl
    | cons c rest =>
      obtain ⟨-, -, he, hE⟩ := hrest c rfl
      rw [exponentPart, if_neg (by simp [he, hE])]
  | some exponent =>
    obtain ⟨sign, digits⟩ := exponent
    obtain ⟨hsign, hdigits⟩ := hexponent sign digits rfl
    show exponentPart (.char letter :: (Text.ofChars (sign.toList ++ digits) ++ rest)) = _
    rw [exponentPart, if_pos (by rcases hletter with rfl | rfl <;> rfl)]
    simp only [exponentSign_append hsign hdigits,
      takeDigits_append hdigits.2 fun c hc => (hrest c hc).1]
    split
    · next heq => exact absurd (Prod.mk.inj heq).1 hdigits.1
    · next heq =>
      obtain ⟨rfl, rfl⟩ := Prod.mk.inj heq
      rfl

/-- The three parts of a number are read one after the other. -/
theorem unsignedNumber?_append {letter : Char} {n : NumberText} (hn : n.IsWellFormed)
    (hletter : letter = 'e' ∨ letter = 'E') (hrest : Stops rest) :
    unsignedNumber? n.negative (Text.ofChars n.whole
        ++ (fractionText n.fraction ++ (exponentText letter n.exponent ++ rest)))
      = some (n, rest) := by
  have hletter' : CodePoint.isDigit (.char letter) = false ∧ CodePoint.char letter ≠ .char '.' := by
    rcases hletter with rfl | rfl
    · exact ⟨rfl, by decide⟩
    · exact ⟨rfl, by decide⟩
  -- neither a digit nor a point is in front of the exponent or of what comes behind it
  have hexponent : ∀ c ∈ (exponentText letter n.exponent ++ rest).head?,
      c.isDigit = false ∧ c ≠ .char '.' := by
    intro c hc
    cases he : n.exponent with
    | none =>
      rw [he] at hc
      exact ⟨(hrest c hc).1, (hrest c hc).2.1⟩
    | some exponent =>
      rw [he] at hc
      obtain rfl := Option.some.inj hc
      exact hletter'
  have hfraction : ∀ c ∈ (fractionText n.fraction
      ++ (exponentText letter n.exponent ++ rest)).head?, c.isDigit = false := by
    intro c hc
    cases hf : n.fraction with
    | none =>
      rw [hf] at hc
      exact (hexponent c hc).1
    | some digits =>
      rw [hf] at hc
      obtain rfl := Option.some.inj hc
      rfl
  rw [unsignedNumber?, wholePart?_append hn.whole hn.zero hfraction]
  simp only [fractionPart_append hn.fraction hexponent,
    exponentPart_append hletter hn.exponent hrest]

/-- **What is spelled as a number is read as one**, if no numeral goes on behind it. -/
theorem numberText?_append {numeral : Text} {n : NumberText} (h : Spelled numeral n)
    (hrest : Stops rest) : numberText? (numeral ++ rest) = some (n, rest) := by
  obtain @⟨letter, n, hn, hletter⟩ := h
  have hunsigned := unsignedNumber?_append hn hletter hrest
  rw [NumberText.text]
  simp only [List.append_assoc]
  cases hnegative : n.negative with
  | true =>
    rw [hnegative] at hunsigned
    exact hunsigned
  | false =>
    rw [hnegative] at hunsigned
    refine (numberText?_unsigned ?_).trans hunsigned
    obtain ⟨c, digits, hcons⟩ := List.exists_cons_of_ne_nil hn.whole.1
    have hc := hn.whole.2 c (hcons ▸ List.mem_cons_self)
    rw [hcons]
    intro hminus
    obtain rfl : c = '-' := CodePoint.char.inj (Option.some.inj hminus)
    cases hc

end Append

/-! ## Values -/

section Scalar

variable {rules : Rules} {numeral rest : Text} {n : NumberText}

/-- A numeral begins with a digit, or with a minus sign and a digit. -/
theorem NumberText.Spelled.eq_cons (h : Spelled numeral n) :
    ∃ c t, c.isDigit = true
      ∧ (numeral = .char c :: t ∨ numeral = .char '-' :: .char c :: t) := by
  obtain @⟨letter, n, hn, -⟩ := h
  obtain ⟨c, digits, hcons⟩ := List.exists_cons_of_ne_nil hn.whole.1
  have hc := hn.whole.2 c (hcons ▸ List.mem_cons_self)
  rw [NumberText.text, hcons]
  cases n.negative with
  | true => exact ⟨c, _, hc, .inr rfl⟩
  | false => exact ⟨c, _, hc, .inl rfl⟩

theorem ne_of_isDigit {c d : Char} (hc : c.isDigit = true) (hd : d.isDigit = false) :
    CodePoint.char c ≠ .char d := by
  intro h
  rw [CodePoint.char.inj h, hd] at hc
  cases hc

/-- No word begins with a digit or a minus sign. -/
theorem word?_of_ne {c : CodePoint} {t : Text} (hn : c ≠ .char 'n') (ht : c ≠ .char 't')
    (hf : c ≠ .char 'f') : word? (c :: t) = none := by
  have hnull : after? "null".toList (c :: t) = none := if_neg hn
  have htrue : after? "true".toList (c :: t) = none := if_neg ht
  have hfalse : after? "false".toList (c :: t) = none := if_neg hf
  rw [word?, hnull, htrue, hfalse]

/-- Only three words are constants, each with a first character of its own. -/
theorem constant?_of_ne {c : CodePoint} {t : Text} (hN : c ≠ .char 'N') (hI : c ≠ .char 'I')
    (hminus : after? "-Infinity".toList (c :: t) = none) : constant? (c :: t) = none := by
  have hnan : after? "NaN".toList (c :: t) = none := if_neg hN
  have hinfinity : after? "Infinity".toList (c :: t) = none := if_neg hI
  rw [constant?, hnan, hinfinity, hminus]

/-- A numeral is no word, and no name of a number either: behind its minus sign there is a digit. -/
theorem NumberText.Spelled.no_word (h : Spelled numeral n) (rest : Text) :
    word? (numeral ++ rest) = none ∧ constant? (numeral ++ rest) = none := by
  obtain ⟨c, t, hc, rfl | rfl⟩ := h.eq_cons
  · rw [List.cons_append]
    constructor
    · exact word?_of_ne (ne_of_isDigit hc rfl) (ne_of_isDigit hc rfl) (ne_of_isDigit hc rfl)
    · exact constant?_of_ne (ne_of_isDigit hc rfl) (ne_of_isDigit hc rfl)
        (if_neg (ne_of_isDigit hc rfl))
  · rw [List.cons_append, List.cons_append]
    refine ⟨word?_of_ne (by decide) (by decide) (by decide),
      constant?_of_ne (by decide) (by decide) ?_⟩
    exact if_neg (ne_of_isDigit hc rfl)

/-- A numeral is read as the number that it spells, if it does not have too many digits. -/
theorem scalar_spelled (h : Spelled numeral n) (hrest : Stops rest)
    (hdigits : n.integerDigits ≤ rules.integerDigits) :
    Reads (scalar rules) (numeral ++ rest) n.value rest := by
  intro offset
  obtain ⟨hword, hconstant⟩ := h.no_word rest
  refine ⟨offset + n.width, ?_⟩
  simp only [scalar, hword, hconstant, number, numberText?_append h hrest]
  unfold NumberText.integerDigits at hdigits
  unfold NumberText.value
  by_cases hwhole : n.isWhole = true
  · rw [if_pos hwhole] at hdigits ⊢
    rw [if_pos hwhole, if_neg (Nat.not_lt.mpr hdigits)]
    rfl
  · rw [if_neg hwhole, if_neg hwhole]
    rfl

/-- **A numeral is read as its value**, if it is no integer with too many digits. It begins neither
a string nor a container. -/
theorem Reads.number {fuel depth : Nat} (h : Spelled numeral n) (hrest : Stops rest)
    (hdigits : n.integerDigits ≤ rules.integerDigits) :
    Reads (Json.value rules (fuel + 1) depth) (numeral ++ rest) n.value rest := by
  have hread := scalar_spelled h hrest hdigits
  obtain ⟨c, t, hc, rfl | rfl⟩ := h.eq_cons
  · have hne (d : Char) (hd : d.isDigit = false) : c ≠ d := by
      rintro rfl
      rw [hc] at hd
      cases hd
    exact hread.scalar (hne _ rfl) (hne _ rfl) (hne _ rfl)
  · exact hread.scalar (by decide) (by decide) (by decide)

end Scalar

end Deeplink.Json

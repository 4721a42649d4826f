import Deeplink.Json.Writer
import Deeplink.Proofs.Json.Numerals

/-!
# Integers there and back

- `Json.Ends`: what may stand behind a value, so that a number does not go on.
- `Json.integerText_spelled`: an integer is written as a numeral.
- `Json.value_ofInt`: the integer comes back, if it does not have too many digits.
-/

namespace Deeplink.Json

/-- Nothing more, or one of the marks that may stand behind a value. -/
def Ends (t : Text) : Prop :=
  t = [] ∨ ∃ c rest, t = .char c :: rest ∧ (c = ',' ∨ c = ']' ∨ c = '\x7d')

theorem Ends.mark {c : Char} {rest : Text} (h : c = ',' ∨ c = ']' ∨ c = '\x7d') :
    Ends (.char c :: rest) :=
  .inr ⟨c, rest, rfl, h⟩

/-- No numeral goes on with any of them. -/
theorem Ends.stops {t : Text} (h : Ends t) : Stops t := by
  intro c hc
  rcases h with rfl | ⟨mark, rest, rfl, hmark⟩
  · cases hc
  · obtain rfl := Option.some.inj hc
    rcases hmark with rfl | rfl | rfl
    · exact ⟨rfl, by decide, by decide, by decide⟩
    · exact ⟨rfl, by decide, by decide, by decide⟩
    · exact ⟨rfl, by decide, by decide, by decide⟩

/-! ## Digits -/

/-- What stands for a number in base ten are digits. -/
theorem isDigit_of_mem_toDigits {n : Nat} {c : Char} (h : c ∈ Nat.toDigits 10 n) :
    c.isDigit = true :=
  Nat.isDigit_of_mem_toDigits (by decide) (by decide) h

/-- Only zero is written with a zero at the front. The induction takes the last digit away. -/
theorem toDigits_eq_cons {n : Nat} (h : 0 < n) :
    ∃ c digits, Nat.toDigits 10 n = c :: digits ∧ c ≠ '0' := by
  induction n using Nat.strongRecOn with
  | ind n ih =>
    by_cases hn : n < 10
    · refine ⟨n.digitChar, [], Nat.toDigits_of_lt_base hn, ?_⟩
      have hall : ∀ i : Fin 10, 0 < i.val → Nat.digitChar i ≠ '0' := by decide
      exact hall ⟨n, hn⟩ h
    · obtain ⟨c, digits, hdigits, hc⟩ := ih (n / 10) (by omega) (by omega)
      refine ⟨c, digits ++ [Nat.digitChar (n % 10)], ?_, hc⟩
      rw [Nat.toDigits_of_base_le (by decide) (by omega), hdigits]
      rfl

/-- The first digit of a natural number is no minus sign and begins no word. -/
theorem ofNat_eq_cons (n : Nat) :
    ∃ c digits, Text.ofNat n = .char c :: digits ∧ c.isDigit = true := by
  cases h : Nat.toDigits 10 n with
  | nil => exact absurd h Nat.toDigits_ne_nil
  | cons c digits =>
    refine ⟨c, Text.ofChars digits, ?_, isDigit_of_mem_toDigits (h ▸ List.mem_cons_self)⟩
    rw [Text.ofNat, h]
    rfl

/-! ## Integers -/

/-- The digits of an integer, with its sign. -/
def integerText (n : Int) : NumberText :=
  ⟨decide (n < 0), Nat.toDigits 10 n.natAbs, none, none⟩

/-- An integer is written without a zero at its front. -/
theorem integerText_isWellFormed (n : Int) : (integerText n).IsWellFormed where
  whole := ⟨Nat.toDigits_ne_nil, fun _ hc => isDigit_of_mem_toDigits hc⟩
  zero := by
    intro hzero
    rcases Nat.eq_zero_or_pos n.natAbs with h | h
    · rw [integerText, h]
      rfl
    · obtain ⟨c, digits, hdigits, hc⟩ := toDigits_eq_cons h
      rw [integerText, hdigits] at hzero
      exact absurd (Option.some.inj hzero) hc
  fraction := fun _ h => nomatch h
  exponent := fun _ _ h => nomatch h

/-- An integer is written as its sign and its digits, without a fraction and an exponent. -/
theorem integerText_text (n : Int) (letter : Char) :
    (integerText n).text letter = Text.ofInt n := by
  cases n with
  | ofNat n =>
    have hnegative : decide (Int.ofNat n < 0) = false :=
      decide_eq_false (Int.not_lt.mpr (Int.natCast_nonneg n))
    rw [integerText, hnegative]
    exact List.append_nil _
  | negSucc n =>
    have hnegative : decide (Int.negSucc n < 0) = true := decide_eq_true (Int.negSucc_lt_zero n)
    rw [integerText, hnegative]
    exact congrArg (CodePoint.char '-' :: ·) (List.append_nil _)

theorem digitsValue_toDigits (n : Nat) : NumberText.digitsValue (Nat.toDigits 10 n) = n :=
  Nat.ofDigitChars_ten_toDigits

/-- An integer is the value of what is written of it. -/
theorem integerText_value (n : Int) : (integerText n).value = .int n := by
  have hwhole : (integerText n).isWhole = true := rfl
  rw [NumberText.value, if_pos hwhole]
  simp only [NumberText.toInt, integerText, digitsValue_toDigits, decide_eq_true_eq]
  split <;> congr 1 <;> omega

/-- **An integer is written as a numeral.** -/
theorem integerText_spelled (n : Int) : NumberText.Spelled (Text.ofInt n) (integerText n) := by
  have h := NumberText.Spelled.mk (integerText_isWellFormed n) (.inl rfl : 'e' = 'e' ∨ _)
  rwa [integerText_text] at h

/-- **An integer comes back as a value**, if it does not have too many digits. -/
theorem value_ofInt {rules : Rules} {fuel depth : Nat} {rest : Text} (h : Ends rest) {n : Int}
    (hn : (Nat.toDigits 10 n.natAbs).length ≤ rules.integerDigits) :
    Reads (value rules (fuel + 1) depth) (Text.ofInt n ++ rest) (.int n) rest := by
  rw [← integerText_value n]
  exact .number (integerText_spelled n) h.stops hn

end Deeplink.Json

import Deeplink.Json.Writer
import Deeplink.Proofs.Json.Strings

/-!
# Strings there and back

A string that is written without escapes for wide code points is read back, surrogates included.

- `Json.SpellsUnits.inString`: what one code point is written as spells that code point.
- `Json.string_spelled`: so a string is spelled as it is written, and it is read again.
-/

namespace Deeplink.Json

/-! ## Units -/

theorem pairUp_escaped {n : Nat} (h : isLeading n = false) (units : List StringUnit) :
    pairUp (.escaped n :: units) = .ofNat n :: pairUp units := by
  rcases units with _ | ⟨_ | m, units⟩
  · rfl
  · rfl
  · rw [pairUp, h]
    rfl

/-- A letter after a backslash stands for what it is written for. -/
theorem shortEscaped?_of_shortEscape? {c letter : Char} (h : shortEscape? c = some letter) :
    shortEscaped? (.char letter) = some c := by
  unfold shortEscape? at h
  repeat' split at h
  all_goals cases h
  all_goals next hc => subst hc; decide

/-- The four digits of a control stand for it. -/
theorem unitEscape_control {n : Nat} (h : n < 0x20) :
    ∃ a b c d, unitEscape n = [.char '\\', .char 'u', a, b, c, d]
      ∧ codeUnit? a b c d = some n := by
  have hall : ∀ i : Fin 0x20, unitEscape i = [.char '\\', .char 'u', .char '0', .char '0',
        .char (Nat.digitChar (i / 16)), .char (Nat.digitChar (i % 16))]
      ∧ codeUnit? (.char '0') (.char '0') (.char (Nat.digitChar (i / 16)))
        (.char (Nat.digitChar (i % 16))) = some i.val := by decide
  exact ⟨_, _, _, _, hall ⟨n, h⟩⟩

/-! ## Strings -/

section String

variable {style : Style} {body : Text} {units : List StringUnit}

/-- **One code point**: it is spelled as it is written, in front of what else is spelled. -/
theorem SpellsUnits.inString (hstyle : style.escapesWide = false) (h : SpellsUnits body units)
    (c : CodePoint) :
    ∃ units', SpellsUnits (style.inString c ++ body) units'
      ∧ pairUp units' = c :: pairUp units := by
  cases hletter : c.char?.bind shortEscape? with
  | some letter =>
    obtain ⟨ch, hch, hletter'⟩ := Option.bind_eq_some_iff.mp hletter
    obtain rfl : c = .char ch := by
      cases c with
      | char c => exact congrArg CodePoint.char (Option.some.inj hch)
      | surrogate i => cases hch
    rw [Style.inString, hletter]
    exact ⟨_, .short (shortEscaped?_of_shortEscape? hletter') h, rfl⟩
  | none =>
    rw [Style.inString, hletter]
    dsimp only
    -- the marks that end a string or an escape have letters, so they do not come this far
    by_cases hc : c.toNat < 0x20
    · rw [if_pos hc]
      obtain ⟨a₀, a₁, a₂, a₃, hescape, hunit⟩ := unitEscape_control hc
      have hleading : isLeading c.toNat = false := by
        have hlt : ¬ 0xD800 ≤ c.toNat := by omega
        simp [isLeading, hlt]
      rw [hescape]
      refine ⟨_, .digits hunit h, ?_⟩
      rw [pairUp_escaped hleading, CodePoint.ofNat_toNat]
    · rw [if_neg hc, hstyle]
      refine ⟨_, .plain ?_ ?_ (Nat.le_of_not_lt hc) h, rfl⟩
      · rintro rfl
        cases hletter
      · rintro rfl
        cases hletter

/-- **A string is spelled as it is written.** -/
theorem string_spelled (hstyle : style.escapesWide = false) (t : Text) :
    SpellsString (style.string t) t := by
  have hunits : ∃ units, SpellsUnits (t.flatMap style.inString) units ∧ pairUp units = t := by
    induction t with
    | nil => exact ⟨[], .nil, rfl⟩
    | cons c t ih =>
      obtain ⟨units, hspells, hunits⟩ := ih
      obtain ⟨units', hspells', hunits'⟩ := hspells.inString hstyle c
      exact ⟨units', hspells', hunits'.trans (congrArg (c :: ·) hunits)⟩
  obtain ⟨units, hspells, hunits⟩ := hunits
  have hstring := SpellsString.mk hspells
  rw [hunits] at hstring
  exact hstring

end String

end Deeplink.Json

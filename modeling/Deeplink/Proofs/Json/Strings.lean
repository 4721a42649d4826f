import Deeplink.Proofs.Json.Members
import Deeplink.Proofs.Json.Reads

/-!
# Strings

How strings are written, apart from how they are read.

- `Json.SpellsUnits`: the units between the marks of a string.
- `Json.SpellsString`: a string between its marks.
- `Json.string_spells`: what is read is spelled so.
- `Json.string_append`: what is spelled so is read.
-/

namespace Deeplink.Json

/-! ## The grammar -/

/-- The units between the marks of a string: code points from `U+0020` on but the quotation mark and
the backslash, and escapes. -/
inductive SpellsUnits : Text → List StringUnit → Prop where
  | nil : SpellsUnits [] []
  | plain {c : CodePoint} {t : Text} {units : List StringUnit} (hquote : c ≠ .char '"')
      (hbackslash : c ≠ .char '\\') (hcontrol : 0x20 ≤ c.toNat) (h : SpellsUnits t units) :
      SpellsUnits (c :: t) (.raw c :: units)
  | short {letter : CodePoint} {c : Char} {t : Text} {units : List StringUnit}
      (hletter : shortEscaped? letter = some c) (h : SpellsUnits t units) :
      SpellsUnits (.char '\\' :: letter :: t) (.raw (.char c) :: units)
  | digits {a b c d : CodePoint} {unit : Nat} {t : Text} {units : List StringUnit}
      (hunit : codeUnit? a b c d = some unit) (h : SpellsUnits t units) :
      SpellsUnits (.char '\\' :: .char 'u' :: a :: b :: c :: d :: t) (.escaped unit :: units)

/-- A string between its marks. -/
inductive SpellsString : Text → Text → Prop where
  | mk {body : Text} {units : List StringUnit} (h : SpellsUnits body units) :
      SpellsString (.char '"' :: (body ++ [.char '"'])) (pairUp units)

/-! ## Strings that have been read -/

/-- The cases are those of the reader, and in those that are left out it fails. -/
theorem stringBody_spells {opening offset : Nat} {t : Text} {units : List StringUnit}
    {after : Cursor} (h : stringBody opening offset t = .ok (units, after)) :
    ∃ body, t = body ++ .char '"' :: after.rest ∧ SpellsUnits body units := by
  fun_induction stringBody opening offset t generalizing units after with
  | case2 offset rest =>
    cases h
    exact ⟨[], rfl, .nil⟩
  | case6 offset a b c d rest unit hunit _ _ ih =>
    obtain ⟨⟨units, after⟩, hread, hunits⟩ := ok_of_bind h
    cases hunits
    obtain ⟨body, rfl, hbody⟩ := ih hread
    exact ⟨_, rfl, .digits hunit hbody⟩
  | case9 offset k rest _ ch hletter _ ih =>
    obtain ⟨⟨units, after⟩, hread, hunits⟩ := ok_of_bind h
    cases hunits
    obtain ⟨body, rfl, hbody⟩ := ih hread
    exact ⟨_, rfl, .short hletter hbody⟩
  | case11 offset c rest hquote hbackslash hcontrol ih =>
    obtain ⟨⟨units, after⟩, hread, hunits⟩ := ok_of_bind h
    cases hunits
    obtain ⟨body, rfl, hbody⟩ := ih hread
    exact ⟨_, rfl, .plain hquote hbackslash (Nat.le_of_not_lt hcontrol) hbody⟩
  | _ => cases h

/-- A string, with the opening mark that has been read before. -/
theorem string_spells {c after : Cursor} {s : Text} (h : string c = .ok (s, after)) :
    ∃ t, .char '"' :: c.rest = t ++ after.rest ∧ SpellsString t s := by
  obtain ⟨⟨units, behind⟩, hread, hunits⟩ := ok_of_bind h
  cases hunits
  obtain ⟨body, hbody, hspells⟩ := stringBody_spells hread
  refine ⟨_, ?_, .mk hspells⟩
  rw [hbody, List.cons_append, List.append_assoc]
  rfl

/-! ## Strings that are read -/

/-- **Units that are spelled are read.** A closing mark always stands behind the digits of a code
unit. -/
theorem stringBody_append {body : Text} {units : List StringUnit} (h : SpellsUnits body units)
    (opening offset : Nat) (left : Text) :
    ∃ o, stringBody opening offset (body ++ .char '"' :: left) = .ok (units, ⟨o, left⟩) := by
  induction h generalizing offset with
  | nil =>
    refine ⟨offset + 1, ?_⟩
    show stringBody opening offset (.char '"' :: left) = _
    unfold stringBody
    rw [if_pos rfl]
  | @plain c t units hquote hbackslash hcontrol h ih =>
    obtain ⟨o, ho⟩ := ih (offset + 1)
    refine ⟨o, ?_⟩
    show stringBody opening offset (c :: (t ++ .char '"' :: left)) = _
    unfold stringBody
    rw [if_neg hquote, if_neg hbackslash, if_neg (Nat.not_lt.mpr hcontrol), ho]
    rfl
  | @short letter c t units hletter h ih =>
    obtain ⟨o, ho⟩ := ih (offset + 2)
    refine ⟨o, ?_⟩
    have hu : letter ≠ .char 'u' := by
      rintro rfl
      cases hletter
    show stringBody opening offset (.char '\\' :: letter :: (t ++ .char '"' :: left)) = _
    unfold stringBody
    rw [if_neg (by decide), if_pos rfl]
    dsimp only
    rw [if_neg hu, hletter]
    dsimp only
    rw [ho]
    rfl
  | @digits a b c d unit t units hunit h ih =>
    obtain ⟨o, ho⟩ := ih (offset + 6)
    refine ⟨o, ?_⟩
    show stringBody opening offset
      (.char '\\' :: .char 'u' :: a :: b :: c :: d :: (t ++ .char '"' :: left)) = _
    unfold stringBody
    rw [if_neg (by decide), if_pos rfl]
    dsimp only
    rw [if_pos rfl, hunit]
    dsimp only
    rw [if_neg (by simp), ho]
    rfl

/-- A string between its marks is read when its opening mark has been. -/
theorem string_append {t s : Text} (h : SpellsString t s) (left : Text) :
    ∃ body, t ++ left = .char '"' :: body ∧ Reads string body s left := by
  obtain @⟨body, units, h⟩ := h
  refine ⟨body ++ .char '"' :: left, ?_, fun offset => ?_⟩
  · rw [List.cons_append, List.append_assoc]
    rfl
  · obtain ⟨o, ho⟩ := stringBody_append h (offset - 1) offset left
    refine ⟨o, ?_⟩
    simp only [string, ho]
    rfl

end Deeplink.Json

import Deeplink.Percent
import Deeplink.Proofs.Text.WellFormed

/-!
# Escapes among octets

What the escapes of a text are, said of its characters and of its octets apart from how they are
read.

- `Percent.digit?`: the hexadecimal digits, of either case.
- `Percent.Loose`: a percent sign that two digits do not follow.
- `Percent.unescaped`: octets with the escapes in them replaced, in one pass from left to right.
- `Percent.unescaped_part`: what stands on the two sides of an octet that no escape has is unescaped
  on its own.
-/

namespace Deeplink.Percent

/-! ## Digits -/

/-- The value of a hexadecimal digit, of either case. -/
def digit? (c : Char) : Option Nat :=
  ("0123456789abcdef".toList.idxOf? c).or ("0123456789ABCDEF".toList.idxOf? c)

/-- The value of an octet that stands for a hexadecimal digit. -/
def octetDigit? (b : UInt8) : Option Nat := digit? (Char.ofNat b.toNat)

theorem digit?_eq_none {c : Char} (h : 0x80 ≤ c.toNat) : digit? c = none := by
  have hlow : c ∉ "0123456789abcdef".toList := by
    intro hmem
    have hall : "0123456789abcdef".toList.all (·.toNat < 0x80) = true := by decide
    exact Nat.not_le.mpr (of_decide_eq_true (List.all_eq_true.mp hall c hmem)) h
  have hhigh : c ∉ "0123456789ABCDEF".toList := by
    intro hmem
    have hall : "0123456789ABCDEF".toList.all (·.toNat < 0x80) = true := by decide
    exact Nat.not_le.mpr (of_decide_eq_true (List.all_eq_true.mp hall c hmem)) h
  rw [digit?, List.idxOf?_eq_none_iff.mpr hlow, List.idxOf?_eq_none_iff.mpr hhigh]
  rfl

/-- The digits that the decoder takes are these. -/
theorem hexValue?_char (c : Char) : Text.hexValue? (.char c) = digit? c := by
  by_cases h : c.toNat < 0x80
  · have hall : ∀ i : Fin 0x80,
        Text.hexValue? (.char (Char.ofNat i.val)) = digit? (Char.ofNat i.val) := by decide +kernel
    have hc := hall ⟨c.toNat, h⟩
    rwa [Char.ofNat_toNat] at hc
  · have hle : 0x80 ≤ c.toNat := Nat.not_lt.mp h
    have hlt (d : Char) (hd : d.toNat < 0x80) : ¬ c ≤ d := by
      intro hcd
      have hnat : c.toNat ≤ d.toNat := hcd
      omega
    rw [digit?_eq_none hle, Text.hexValue?]
    rw [if_neg fun h => hlt '9' (by decide) h.2, if_neg fun h => hlt 'f' (by decide) h.2,
      if_neg fun h => hlt 'F' (by decide) h.2]

theorem octetDigit?_ofNat {c : Char} (h : c.toNat < 0x80) :
    octetDigit? (UInt8.ofNat c.toNat) = digit? c := by
  rw [octetDigit?, Utf8.toNat_ofNat (by omega), Char.ofNat_toNat]

/-- The octets of a character that is no digit are none. -/
theorem octetDigit?_eq_none {c : Char} (h : digit? c = none) :
    ∀ b ∈ Utf8.encodeChar c, octetDigit? b = none := by
  intro b hb
  by_cases hascii : c.toNat < 0x80
  · rw [Utf8.encodeChar_one hascii] at hb
    rw [List.mem_singleton.mp hb, octetDigit?_ofNat hascii, h]
  · have hwide : 0x80 ≤ b.toNat := Utf8.le_of_mem_encodeChar (Nat.not_lt.mp hascii) b hb
    have hb : b.toNat < 256 := b.toNat_lt
    apply digit?_eq_none
    rwa [Utf8.toNat_charOfNat (by omega)]

/-- The octet of a digit. -/
theorem encodeChar_of_digit {c : Char} {n : Nat} (h : digit? c = some n) :
    Utf8.encodeChar c = [UInt8.ofNat c.toNat] ∧ octetDigit? (UInt8.ofNat c.toNat) = some n := by
  have hascii : c.toNat < 0x80 := by
    apply Nat.lt_of_not_le
    intro hwide
    rw [digit?_eq_none hwide] at h
    cases h
  exact ⟨Utf8.encodeChar_one hascii, (octetDigit?_ofNat hascii).trans h⟩

/-- The octets of a character that is no percent sign begin no escape. -/
theorem octet_ne_percent {c : Char} (hc : c ≠ '%') : ∀ b ∈ Utf8.encodeChar c, b ≠ 0x25 := by
  intro b hb heq
  subst heq
  by_cases h : c.toNat < 0x80
  · rw [Utf8.encodeChar_one h] at hb
    have hnat : (0x25 : UInt8).toNat = c.toNat := by
      rw [List.mem_singleton.mp hb, Utf8.toNat_ofNat (by omega)]
    refine hc ?_
    rw [← Char.ofNat_toNat c, ← hnat]
    rfl
  · have hwide := Utf8.le_of_mem_encodeChar (Nat.not_lt.mp h) _ hb
    revert hwide
    decide

/-! ## Loose percent signs -/

/-- A percent sign stands at the index, and two digits do not follow it. -/
def Loose (t : Text) (i : Nat) : Prop :=
  t[i]? = some (.char '%') ∧ ¬ ∃ high low, t[i + 1]? = some (.char high)
    ∧ t[i + 2]? = some (.char low) ∧ (digit? high).isSome = true ∧ (digit? low).isSome = true

/-- No percent sign before this loose one is loose. -/
def FirstLoose (t : Text) (n : Nat) : Prop := Loose t n ∧ ∀ i < n, ¬ Loose t i

section Loose

variable {c : CodePoint} {t : Text}

theorem not_loose_zero (hc : c ≠ .char '%') : ¬ Loose (c :: t) 0 := by
  rintro ⟨hmark, -⟩
  exact hc (Option.some.inj hmark)

/-- The digits of an escape are no percent signs. -/
theorem not_loose_digit {a : Char} {n : Nat} (ha : digit? a = some n) :
    ¬ Loose (.char a :: t) 0 := by
  apply not_loose_zero
  intro heq
  obtain rfl : a = '%' := CodePoint.char.inj heq
  have hmark : digit? '%' = none := by decide
  rw [hmark] at ha
  cases ha

theorem FirstLoose.cons {n : Nat} (hc : ¬ Loose (c :: t) 0) (h : FirstLoose t n) :
    FirstLoose (c :: t) (n + 1) := by
  obtain ⟨hloose, hfirst⟩ := h
  refine ⟨hloose, ?_⟩
  intro i hi
  cases i with
  | zero => exact hc
  | succ i => exact hfirst i (Nat.lt_of_succ_lt_succ hi)

theorem forall_not_loose_cons (hc : ¬ Loose (c :: t) 0) (h : ∀ i, ¬ Loose t i) (i : Nat) :
    ¬ Loose (c :: t) i := by
  cases i with
  | zero => exact hc
  | succ i => exact h i

/-- There is one first loose percent sign at most. -/
theorem FirstLoose.unique {n m : Nat} (hn : FirstLoose t n) (hm : FirstLoose t m) : n = m := by
  obtain ⟨hn, hn'⟩ := hn
  obtain ⟨hm, hm'⟩ := hm
  apply Nat.le_antisymm
  · exact Nat.not_lt.mp fun hlt => hn' m hlt hm
  · exact Nat.not_lt.mp fun hlt => hm' n hlt hn

/-- A percent sign is loose whatever stands behind a character that is no digit. -/
theorem Loose.append {c : Char} (hdigit : digit? c = none) {front : Text} {i : Nat}
    (h : Loose front i) (back : Text) : Loose (front ++ .char c :: back) i := by
  obtain ⟨hmark, hdigits⟩ := h
  obtain ⟨hi, hmark⟩ := List.getElem?_eq_some_iff.mp hmark
  refine ⟨?_, ?_⟩
  · rw [List.getElem?_append_left hi, List.getElem?_eq_getElem hi, hmark]
  · rintro ⟨high, low, hhigh, hlow, hd, hd'⟩
    -- the digits would have to come before the character
    have hbefore {j : Nat} {a : Char} (hj : j ≤ front.length)
        (ha : (front ++ .char c :: back)[j]? = some (.char a)) (hda : (digit? a).isSome = true) :
        j < front.length ∧ front[j]? = some (.char a) := by
      rcases Nat.lt_or_eq_of_le hj with hlt | rfl
      · rw [List.getElem?_append_left hlt] at ha
        exact ⟨hlt, ha⟩
      · rw [List.getElem?_append_right (Nat.le_refl _), Nat.sub_self] at ha
        obtain rfl : c = a := CodePoint.char.inj (Option.some.inj ha)
        rw [hdigit] at hda
        cases hda
    obtain ⟨hlt, hhigh⟩ := hbefore (by omega) hhigh hd
    obtain ⟨-, hlow⟩ := hbefore (by omega) hlow hd'
    exact hdigits ⟨high, low, hhigh, hlow, hd, hd'⟩

theorem Loose.behind {back : Text} {i : Nat} (h : Loose back i) (front : Text) :
    Loose (front ++ back) (front.length + i) := by
  have hshift (j : Nat) : (front ++ back)[front.length + i + j]? = back[i + j]? := by
    rw [List.getElem?_append_right (by omega)]
    congr 1
    omega
  obtain ⟨hmark, hdigits⟩ := h
  refine ⟨(hshift 0).trans hmark, ?_⟩
  rintro ⟨high, low, hhigh, hlow, hd⟩
  exact hdigits ⟨high, low, (hshift 1).symm.trans hhigh, (hshift 2).symm.trans hlow, hd⟩

end Loose

/-! ## Unescaped octets -/

/-- Octets with the escapes in them replaced, in one pass from left to right. -/
def unescaped : List UInt8 → List UInt8
  | p :: high :: low :: bs =>
    match p == 0x25, octetDigit? high, octetDigit? low with
    | true, some h, some l => UInt8.ofNat (16 * h + l) :: unescaped bs
    | _, _, _ => p :: unescaped (high :: low :: bs)
  | bs => bs

section Unescaped

variable {b : UInt8}

theorem unescaped_escape {high low : UInt8} {h l : Nat} (hhigh : octetDigit? high = some h)
    (hlow : octetDigit? low = some l) (bs : List UInt8) :
    unescaped (0x25 :: high :: low :: bs) = UInt8.ofNat (16 * h + l) :: unescaped bs := by
  rw [unescaped, hhigh, hlow]
  rfl

/-- An octet that begins no escape stays. -/
theorem unescaped_cons (hb : b ≠ 0x25) (bs : List UInt8) :
    unescaped (b :: bs) = b :: unescaped bs := by
  match bs with
  | [] => rfl
  | [a] => rfl
  | a :: a' :: bs =>
    rw [unescaped, beq_eq_false_iff_ne.mpr hb]

/-- So does a percent sign that digits do not follow. -/
theorem unescaped_mark {bs : List UInt8} (h : ∀ high low rest, bs = high :: low :: rest →
    octetDigit? high = none ∨ octetDigit? low = none) :
    unescaped (0x25 :: bs) = 0x25 :: unescaped bs := by
  match bs with
  | [] => rfl
  | [a] => rfl
  | high :: low :: rest =>
    rw [unescaped]
    rcases h high low rest rfl with hnone | hnone
    · rw [hnone]
      cases octetDigit? low <;> rfl
    · rw [hnone]
      cases octetDigit? high <;> rfl

theorem unescaped_append {front : List UInt8} (hfront : ∀ b ∈ front, b ≠ 0x25)
    (bs : List UInt8) : unescaped (front ++ bs) = front ++ unescaped bs := by
  induction front with
  | nil => rfl
  | cons b front ih =>
    have hmore : ∀ a ∈ front, a ≠ 0x25 := fun a ha => hfront a (List.mem_cons_of_mem b ha)
    rw [List.cons_append, unescaped_cons (hfront b List.mem_cons_self), ih hmore]
    rfl

/-- An octet that is neither a percent sign nor a digit parts what is before it from what is behind
it: strong induction on what is before it. -/
theorem unescaped_part (hb : b ≠ 0x25) (hdigit : octetDigit? b = none) (front back : List UInt8) :
    unescaped (front ++ b :: back) = unescaped front ++ b :: unescaped back := by
  induction hn : front.length using Nat.strongRecOn generalizing front with
  | ind n ih =>
    match front with
    | [] => exact unescaped_cons hb back
    | p :: more =>
      have hmore : unescaped (more ++ b :: back) = unescaped more ++ b :: unescaped back :=
        ih more.length (by rw [← hn]; exact Nat.lt_succ_self _) more rfl
      by_cases hp : p = 0x25
      · subst hp
        match more with
        | [] =>
          rw [List.cons_append, unescaped_mark, hmore]
          · rfl
          · intro high low rest heq
            obtain ⟨rfl, -⟩ := List.cons.inj heq
            exact .inl hdigit
        | [a] =>
          rw [List.cons_append, unescaped_mark, hmore]
          · rfl
          · intro high low rest heq
            obtain ⟨-, heq⟩ := List.cons.inj heq
            obtain ⟨rfl, -⟩ := List.cons.inj heq
            exact .inr hdigit
        | high :: low :: rest =>
          by_cases hdigits : ∃ h l, octetDigit? high = some h ∧ octetDigit? low = some l
          · obtain ⟨h, l, hhigh, hlow⟩ := hdigits
            have hlt : rest.length < n := by
              simp only [List.length_cons] at hn
              omega
            simp only [List.cons_append]
            rw [unescaped_escape hhigh hlow, unescaped_escape hhigh hlow, ih _ hlt rest rfl]
            rfl
          · have hnone : octetDigit? high = none ∨ octetDigit? low = none := by
              cases hhigh : octetDigit? high with
              | none => exact .inl rfl
              | some h =>
                cases hlow : octetDigit? low with
                | none => exact .inr rfl
                | some l => exact absurd ⟨h, l, hhigh, hlow⟩ hdigits
            have hmark (bs : List UInt8) : unescaped (0x25 :: high :: low :: bs)
                = 0x25 :: unescaped (high :: low :: bs) := by
              apply unescaped_mark
              intro high' low' rest' heq
              obtain ⟨hhigh, heq⟩ := List.cons.inj heq
              obtain ⟨hlow, -⟩ := List.cons.inj heq
              rw [← hhigh, ← hlow]
              exact hnone
            rw [hmark rest]
            exact (hmark (rest ++ b :: back)).trans (congrArg (0x25 :: ·) hmore)
      · rw [List.cons_append, unescaped_cons hp, hmore, unescaped_cons hp]
        rfl

end Unescaped

end Deeplink.Percent

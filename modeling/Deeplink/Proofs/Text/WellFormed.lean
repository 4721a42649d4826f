import Deeplink.Proofs.Text.Utf8

/-!
# Well-formed octets

Which octets belong to a text can be said without decoding them, and where a character begins among
them can be seen from the octets around it.

- `Utf8.Sequence`: the octets that stand for one character. None is too long, a surrogate, above
  `10FFFF` or cut off.
- `Utf8.WellFormed`: such sequences one after the other.
- `Utf8.sequence_iff`, `Utf8.wellFormed_iff`: these are the octets of characters, and of texts.
- `Utf8.decode_eq_ok_iff`: strict decoding succeeds on well-formed octets only.
- `Utf8.exists_split`: octets are well-formed around a character if they are well-formed with it.
-/

namespace Deeplink.Utf8

/-! ## Sequences -/

/-- An octet behind the first one of a sequence. -/
def Tail (b : UInt8) : Prop := 0x80 ≤ b.toNat ∧ b.toNat ≤ 0xBF

/-- The octets that stand for one character, by their number. -/
inductive Sequence : List UInt8 → Prop where
  | one {a : UInt8} (h : a.toNat ≤ 0x7F) : Sequence [a]
  | two {a b : UInt8} (h : 0xC2 ≤ a.toNat) (h' : a.toNat ≤ 0xDF) (hb : Tail b) : Sequence [a, b]
  | three {a b c : UInt8} (h : 0xE0 ≤ a.toNat) (h' : a.toNat ≤ 0xEF) (hb : Tail b) (hc : Tail c)
      (hlong : a.toNat = 0xE0 → 0xA0 ≤ b.toNat) (hsurrogate : a.toNat = 0xED → b.toNat ≤ 0x9F) :
      Sequence [a, b, c]
  | four {a b c d : UInt8} (h : 0xF0 ≤ a.toNat) (h' : a.toNat ≤ 0xF4) (hb : Tail b) (hc : Tail c)
      (hd : Tail d) (hlong : a.toNat = 0xF0 → 0x90 ≤ b.toNat)
      (hlarge : a.toNat = 0xF4 → b.toNat ≤ 0x8F) : Sequence [a, b, c, d]

/-- Sequences one after the other. -/
inductive WellFormed : List UInt8 → Prop where
  | nil : WellFormed []
  | cons {bs rest : List UInt8} (h : Sequence bs) (hrest : WellFormed rest) :
      WellFormed (bs ++ rest)

/-! ## The octets of a character -/

section Lengths

variable {c : Char}

theorem toNat_valid (c : Char) : c.toNat < 0xD800 ∨ 0xE000 ≤ c.toNat ∧ c.toNat < 0x110000 := by
  have hvalid := c.valid
  simp only [UInt32.isValidChar, Nat.isValidChar] at hvalid
  show c.val.toNat < 0xD800 ∨ 0xE000 ≤ c.val.toNat ∧ c.val.toNat < 0x110000
  omega

theorem encodeChar_one (h : c.toNat < 0x80) : encodeChar c = [UInt8.ofNat c.toNat] := by
  have h' : c.val.toNat ≤ 127 := Nat.le_of_lt_succ h
  unfold encodeChar String.utf8EncodeChar
  rw [if_pos h']
  rfl

theorem encodeChar_two (h : 0x80 ≤ c.toNat) (h' : c.toNat < 0x800) :
    encodeChar c = [UInt8.ofNat (c.toNat / 64 + 192), UInt8.ofNat (c.toNat % 64 + 128)] := by
  have h₁ : ¬ c.val.toNat ≤ 127 := Nat.not_le.mpr h
  have h₂ : c.val.toNat ≤ 2047 := Nat.le_of_lt_succ h'
  have hfirst : c.val.toNat / 64 % 32 = c.val.toNat / 64 := by omega
  unfold encodeChar String.utf8EncodeChar
  simp only [if_neg h₁, if_pos h₂, hfirst]
  rfl

theorem encodeChar_three (h : 0x800 ≤ c.toNat) (h' : c.toNat < 0x10000) :
    encodeChar c = [UInt8.ofNat (c.toNat / 4096 + 224), UInt8.ofNat (c.toNat / 64 % 64 + 128),
      UInt8.ofNat (c.toNat % 64 + 128)] := by
  have h₁ : ¬ c.val.toNat ≤ 127 := Nat.not_le.mpr (Nat.le_trans (by decide) h)
  have h₂ : ¬ c.val.toNat ≤ 2047 := Nat.not_le.mpr h
  have h₃ : c.val.toNat ≤ 65535 := Nat.le_of_lt_succ h'
  have hfirst : c.val.toNat / 4096 % 16 = c.val.toNat / 4096 := by omega
  unfold encodeChar String.utf8EncodeChar
  simp only [if_neg h₁, if_neg h₂, if_pos h₃, hfirst]
  rfl

theorem encodeChar_four (h : 0x10000 ≤ c.toNat) :
    encodeChar c = [UInt8.ofNat (c.toNat / 262144 + 240), UInt8.ofNat (c.toNat / 4096 % 64 + 128),
      UInt8.ofNat (c.toNat / 64 % 64 + 128), UInt8.ofNat (c.toNat % 64 + 128)] := by
  have hvalid := toNat_valid c
  have h₁ : ¬ c.val.toNat ≤ 127 := Nat.not_le.mpr (Nat.le_trans (by decide) h)
  have h₂ : ¬ c.val.toNat ≤ 2047 := Nat.not_le.mpr (Nat.le_trans (by decide) h)
  have h₃ : ¬ c.val.toNat ≤ 65535 := Nat.not_le.mpr h
  have hfirst : c.val.toNat / 262144 % 8 = c.val.toNat / 262144 := by
    have hlt : c.val.toNat < 0x110000 := by
      show c.toNat < 0x110000
      omega
    omega
  unfold encodeChar String.utf8EncodeChar
  simp only [if_neg h₁, if_neg h₂, if_neg h₃, hfirst]
  rfl

end Lengths

/-- The octets of a character are a sequence, in each of the four lengths. -/
theorem sequence_encodeChar (c : Char) : Sequence (encodeChar c) := by
  have hvalid := toNat_valid c
  by_cases h₁ : c.toNat < 0x80
  · rw [encodeChar_one h₁]
    refine .one ?_
    rw [toNat_ofNat (by omega)]
    omega
  by_cases h₂ : c.toNat < 0x800
  · have htail : Tail (UInt8.ofNat (c.toNat % 64 + 128)) := by
      rw [Tail, toNat_ofNat (by omega)]
      omega
    rw [encodeChar_two (by omega) h₂]
    refine .two ?_ ?_ htail
    · rw [toNat_ofNat (by omega)]
      omega
    · rw [toNat_ofNat (by omega)]
      omega
  have htail (n : Nat) : Tail (UInt8.ofNat (n % 64 + 128)) := by
    rw [Tail, toNat_ofNat (by omega)]
    omega
  by_cases h₃ : c.toNat < 0x10000
  · rw [encodeChar_three (by omega) h₃]
    refine .three ?_ ?_ (htail _) (htail _) ?_ ?_
    · rw [toNat_ofNat (by omega)]
      omega
    · rw [toNat_ofNat (by omega)]
      omega
    · rw [toNat_ofNat (by omega), toNat_ofNat (by omega)]
      omega
    · rw [toNat_ofNat (by omega), toNat_ofNat (by omega)]
      omega
  · rw [encodeChar_four (by omega)]
    refine .four ?_ ?_ (htail _) (htail _) (htail _) ?_ ?_
    · rw [toNat_ofNat (by omega)]
      omega
    · rw [toNat_ofNat (by omega)]
      omega
    · rw [toNat_ofNat (by omega), toNat_ofNat (by omega)]
      omega
    · rw [toNat_ofNat (by omega), toNat_ofNat (by omega)]
      omega

/-- The octets of a character above ASCII are above ASCII too. -/
theorem le_of_mem_encodeChar {c : Char} (hc : 0x80 ≤ c.toNat) :
    ∀ b ∈ encodeChar c, 0x80 ≤ b.toNat := by
  have hvalid := toNat_valid c
  have hofNat {n : Nat} (h : 0x80 ≤ n) (h' : n < 256) : 0x80 ≤ (UInt8.ofNat n).toNat := by
    rwa [toNat_ofNat h']
  intro b hb
  by_cases h₂ : c.toNat < 0x800
  · rw [encodeChar_two hc h₂] at hb
    simp only [List.mem_cons, List.not_mem_nil, or_false] at hb
    rcases hb with rfl | rfl <;> exact hofNat (by omega) (by omega)
  by_cases h₃ : c.toNat < 0x10000
  · rw [encodeChar_three (by omega) h₃] at hb
    simp only [List.mem_cons, List.not_mem_nil, or_false] at hb
    rcases hb with rfl | rfl | rfl <;> exact hofNat (by omega) (by omega)
  · rw [encodeChar_four (by omega)] at hb
    simp only [List.mem_cons, List.not_mem_nil, or_false] at hb
    rcases hb with rfl | rfl | rfl | rfl <;> exact hofNat (by omega) (by omega)

/-- Every number that is no surrogate and not too large is that of a character. -/
theorem toNat_charOfNat {v : Nat} (h : v < 0xD800 ∨ 0xE000 ≤ v ∧ v < 0x110000) :
    (Char.ofNat v).toNat = v := by
  have hvalid : v.isValidChar := by
    rcases h with h | h
    · exact .inl h
    · exact .inr ⟨by omega, h.2⟩
  rw [Char.ofNat, dif_pos hvalid]
  exact UInt32.toNat_ofNatLT

/-- An octet is known from its number. -/
theorem ofNat_eq {a : UInt8} {n : Nat} (h : a.toNat = n) : UInt8.ofNat n = a := by
  rw [← h, UInt8.ofNat_toNat]

/-- **A sequence stands for a character**: the bits of its octets, put together. -/
theorem exists_encodeChar {bs : List UInt8} (h : Sequence bs) : ∃ c, encodeChar c = bs := by
  cases h with
  | @one a h =>
    obtain ⟨c, hc⟩ : ∃ c : Char, c.toNat = a.toNat := ⟨_, toNat_charOfNat (by omega)⟩
    refine ⟨c, ?_⟩
    rw [encodeChar_one (by omega), hc, ofNat_eq rfl]
  | @two a b h h' hb =>
    obtain ⟨hb, hb'⟩ := hb
    obtain ⟨c, hc⟩ : ∃ c : Char, c.toNat = (a.toNat - 192) * 64 + (b.toNat - 128) :=
      ⟨_, toNat_charOfNat (by omega)⟩
    refine ⟨c, ?_⟩
    rw [encodeChar_two (by omega) (by omega), hc, ofNat_eq (a := a) (by omega),
      ofNat_eq (a := b) (by omega)]
  | @three a b d h h' hb hd hlong hsurrogate =>
    obtain ⟨⟨hb, hb'⟩, ⟨hd, hd'⟩⟩ := And.intro hb hd
    obtain ⟨c, hc⟩ : ∃ c : Char, c.toNat
        = ((a.toNat - 224) * 64 + (b.toNat - 128)) * 64 + (d.toNat - 128) :=
      ⟨_, toNat_charOfNat (by omega)⟩
    refine ⟨c, ?_⟩
    rw [encodeChar_three (by omega) (by omega), hc, ofNat_eq (a := a) (by omega),
      ofNat_eq (a := b) (by omega), ofNat_eq (a := d) (by omega)]
  | @four a b d e h h' hb hd he hlong hlarge =>
    obtain ⟨⟨hb, hb'⟩, ⟨hd, hd'⟩, ⟨he, he'⟩⟩ := And.intro hb (And.intro hd he)
    obtain ⟨c, hc⟩ : ∃ c : Char, c.toNat = (((a.toNat - 240) * 64 + (b.toNat - 128)) * 64
        + (d.toNat - 128)) * 64 + (e.toNat - 128) := ⟨_, toNat_charOfNat (by omega)⟩
    refine ⟨c, ?_⟩
    rw [encodeChar_four (by omega), hc, ofNat_eq (a := a) (by omega),
      ofNat_eq (a := b) (by omega), ofNat_eq (a := d) (by omega), ofNat_eq (a := e) (by omega)]

/-- Such a sequence is the octets of a character. -/
theorem sequence_iff (bs : List UInt8) : Sequence bs ↔ ∃ c, encodeChar c = bs := by
  constructor
  · exact exists_encodeChar
  · rintro ⟨c, rfl⟩
    exact sequence_encodeChar c

/-- **Well-formed octets are the octets of texts.** -/
theorem wellFormed_iff (bs : List UInt8) :
    WellFormed bs ↔ ∃ cs : List Char, cs.flatMap encodeChar = bs := by
  constructor
  · intro h
    induction h with
    | nil => exact ⟨[], rfl⟩
    | cons h hrest ih =>
      obtain ⟨c, rfl⟩ := (sequence_iff _).mp h
      obtain ⟨cs, rfl⟩ := ih
      exact ⟨c :: cs, List.flatMap_cons⟩
  · rintro ⟨cs, rfl⟩
    induction cs with
    | nil => exact .nil
    | cons c cs ih =>
      rw [List.flatMap_cons]
      exact .cons ((sequence_iff _).mpr ⟨c, rfl⟩) ih

/-! ## Strict decoding -/

section Decoding

variable {b : UInt8} {bs : List UInt8} {pos : Nat} {t : Text}

/-- What a first octet promises is a sequence, if it is kept. -/
theorem sequence_of_lead {p : Partial} (hp : lead? false pos b = some p) {b₁ : UInt8}
    {more : List UInt8} (hlow : p.low.toNat ≤ b₁.toNat) (hhigh : b₁.toNat ≤ p.high.toNat)
    (hmore : ∀ a ∈ more, Tail a) (howed : more.length + 1 = p.owed) :
    Sequence (b :: b₁ :: more) := by
  have hlt (n : UInt8) : b < n ↔ b.toNat < n.toNat := UInt8.lt_iff_toNat_lt
  have heq (n : UInt8) : b = n ↔ b.toNat = n.toNat := UInt8.toNat_inj.symm
  -- two further octets behind the second one at most, by the number that is owed
  have hone (h : more.length = 1) : ∃ a, more = [a] ∧ Tail a := by
    obtain ⟨a, rfl⟩ := List.length_eq_one_iff.mp h
    exact ⟨a, rfl, hmore a List.mem_cons_self⟩
  have htwo (h : more.length = 2) : ∃ a a', more = [a, a'] ∧ Tail a ∧ Tail a' := by
    match more, h with
    | [a, a'], _ => exact ⟨a, a', rfl, hmore a (by simp), hmore a' (by simp)⟩
  simp only [lead?, hlt, heq, UInt8.reduceToNat] at hp
  split at hp
  · cases hp
  split at hp
  · obtain rfl := Option.some.inj hp
    obtain rfl : more = [] := List.length_eq_zero_iff.mp (Nat.succ.inj howed)
    exact .two (by omega) (by omega) ⟨hlow, hhigh⟩
  split at hp
  · obtain rfl := Option.some.inj hp
    obtain ⟨a, rfl, ha⟩ := hone (Nat.succ.inj howed)
    simp only [UInt8.reduceToNat] at hlow hhigh
    exact .three (by omega) (by omega) ⟨by omega, by omega⟩ ha (by omega) (by omega)
  split at hp
  · next hED =>
    simp only [Bool.not_false, Bool.and_true, decide_eq_true_eq] at hED
    obtain rfl := Option.some.inj hp
    obtain ⟨a, rfl, ha⟩ := hone (Nat.succ.inj howed)
    simp only [UInt8.reduceToNat] at hlow hhigh
    exact .three (by omega) (by omega) ⟨by omega, by omega⟩ ha (by omega) (by omega)
  next hED =>
  simp only [Bool.not_false, Bool.and_true, decide_eq_true_eq] at hED
  split at hp
  · obtain rfl := Option.some.inj hp
    obtain ⟨a, rfl, ha⟩ := hone (Nat.succ.inj howed)
    exact .three (by omega) (by omega) ⟨hlow, hhigh⟩ ha (by omega) (by omega)
  split at hp
  · obtain rfl := Option.some.inj hp
    obtain ⟨a, a', rfl, ha, ha'⟩ := htwo (Nat.succ.inj howed)
    simp only [UInt8.reduceToNat] at hlow hhigh
    exact .four (by omega) (by omega) ⟨by omega, by omega⟩ ha ha' (by omega) (by omega)
  split at hp
  · obtain rfl := Option.some.inj hp
    obtain ⟨a, a', rfl, ha, ha'⟩ := htwo (Nat.succ.inj howed)
    exact .four (by omega) (by omega) ⟨hlow, hhigh⟩ ha ha' (by omega) (by omega)
  split at hp
  · obtain rfl := Option.some.inj hp
    obtain ⟨a, a', rfl, ha, ha'⟩ := htwo (Nat.succ.inj howed)
    simp only [UInt8.reduceToNat] at hlow hhigh
    exact .four (by omega) (by omega) ⟨by omega, by omega⟩ ha ha' (by omega) (by omega)
  · cases hp

/-- Something is owed behind every first octet of a longer sequence. -/
theorem owed_pos {p : Partial} (hp : lead? false pos b = some p) : 0 < p.owed := by
  simp only [lead?] at hp
  split at hp
  · cases hp
  split at hp
  · exact Option.some.inj hp ▸ Nat.succ_pos _
  split at hp
  · exact Option.some.inj hp ▸ Nat.succ_pos _
  split at hp
  · exact Option.some.inj hp ▸ Nat.succ_pos _
  split at hp
  · exact Option.some.inj hp ▸ Nat.succ_pos _
  split at hp
  · exact Option.some.inj hp ▸ Nat.succ_pos _
  split at hp
  · exact Option.some.inj hp ▸ Nat.succ_pos _
  split at hp
  · exact Option.some.inj hp ▸ Nat.succ_pos _
  · cases hp

/-- What is owed comes before decoding goes on: induction on its number. -/
theorem paid_of_decodeFrom {n : Nat} {p : Partial} (howed : p.owed = n + 1)
    (h : decodeFrom false (some p) pos bs = .ok t) :
    ∃ b₁ more rest pos' t', bs = b₁ :: (more ++ rest) ∧ p.low.toNat ≤ b₁.toNat
      ∧ b₁.toNat ≤ p.high.toNat ∧ (∀ a ∈ more, Tail a) ∧ more.length = n
      ∧ decodeFrom false none pos' rest = .ok t' := by
  induction n generalizing p pos bs with
  | zero =>
    cases bs with
    | nil => cases h
    | cons b₁ bs =>
      rw [decodeFrom] at h
      split at h
      · next hrange =>
        cases hrest : decodeFrom false none (pos + 1) bs with
        | error fault =>
          rw [hrest] at h
          cases h
        | ok t' =>
          exact ⟨b₁, [], bs, pos + 1, t', rfl, UInt8.le_iff_toNat_le.mp hrange.1,
            UInt8.le_iff_toNat_le.mp hrange.2, by simp, rfl, hrest⟩
      · cases h
  | succ n ih =>
    cases bs with
    | nil => cases h
    | cons b₁ bs =>
      rw [decodeFrom] at h
      split at h
      · next hrange =>
        rw [if_neg (by omega)] at h
        -- the next octet may be any one that is not the first of a sequence
        obtain ⟨b₂, more, rest, pos', t', rfl, hlow, hhigh, hmore, hlength, hrest⟩ :=
          ih (by simp [howed]) h
        refine ⟨b₁, b₂ :: more, rest, pos', t', rfl, UInt8.le_iff_toNat_le.mp hrange.1,
          UInt8.le_iff_toNat_le.mp hrange.2, ?_, by rw [List.length_cons, hlength], hrest⟩
        intro a ha
        rcases List.mem_cons.mp ha with rfl | ha
        · exact ⟨hlow, hhigh⟩
        · exact hmore a ha
      · cases h

/-- Decoding goes through the octets sequence by sequence. -/
theorem sequence_of_decodeFrom (h : decodeFrom false none pos (b :: bs) = .ok t) :
    ∃ first rest pos' t', b :: bs = first ++ rest ∧ Sequence first
      ∧ decodeFrom false none pos' rest = .ok t' := by
  rw [decodeFrom] at h
  by_cases hascii : b < 0x80
  · rw [if_pos hascii] at h
    cases hrest : decodeFrom false none (pos + 1) bs with
    | error fault =>
      rw [hrest] at h
      cases h
    | ok t' =>
      have hone : b.toNat ≤ 0x7F := Nat.le_of_lt_succ (UInt8.lt_iff_toNat_lt.mp hascii)
      exact ⟨[b], bs, pos + 1, t', rfl, .one hone, hrest⟩
  · rw [if_neg hascii] at h
    cases hp : lead? false pos b with
    | none =>
      rw [hp] at h
      cases h
    | some p =>
      rw [hp] at h
      obtain ⟨n, hn⟩ := Nat.exists_eq_succ_of_ne_zero (Nat.ne_of_gt (owed_pos hp))
      obtain ⟨b₁, more, rest, pos', t', rfl, hlow, hhigh, hmore, hlength, hrest⟩ :=
        paid_of_decodeFrom hn h
      have hsequence : Sequence (b :: b₁ :: more) :=
        sequence_of_lead hp hlow hhigh hmore (by omega)
      exact ⟨b :: b₁ :: more, rest, pos', t', rfl, hsequence, hrest⟩

/-- What is decoded is well-formed: induction on the number of octets that are left. -/
theorem wellFormed_of_decodeFrom (h : decodeFrom false none pos bs = .ok t) : WellFormed bs := by
  induction hn : bs.length using Nat.strongRecOn generalizing bs pos t with
  | ind n ih =>
    cases bs with
    | nil => exact .nil
    | cons b bs =>
      obtain ⟨first, rest, pos', t', hsplit, hfirst, hrest⟩ := sequence_of_decodeFrom h
      have hlength : rest.length < n := by
        have hpos : 0 < first.length := by
          cases hfirst <;> exact Nat.succ_pos _
        rw [← hn, hsplit, List.length_append]
        omega
      rw [hsplit]
      exact .cons hfirst (ih rest.length hlength hrest rfl)

/-- **Strict decoding succeeds on the octets of a text only**, and gives the text. -/
theorem decode_eq_ok_iff (bs : List UInt8) (t : Text) :
    decode bs = .ok t ↔ ∃ cs, t = Text.ofChars cs ∧ cs.flatMap encodeChar = bs := by
  constructor
  · intro h
    obtain ⟨cs, rfl⟩ := (wellFormed_iff bs).mp (wellFormed_of_decodeFrom h)
    rw [decode_encode] at h
    exact ⟨cs, (Except.ok.inj h).symm, rfl⟩
  · rintro ⟨cs, rfl, rfl⟩
    exact decode_encode cs

/-- Different texts have different octets. -/
theorem flatMap_encodeChar_injective {cs cs' : List Char}
    (h : cs.flatMap encodeChar = cs'.flatMap encodeChar) : cs = cs' := by
  have hdecode : decode (cs.flatMap encodeChar) = .ok (Text.ofChars cs') := by
    rw [h, decode_encode]
  rw [decode_encode] at hdecode
  have htext : Text.ofChars cs = Text.ofChars cs' := Except.ok.inj hdecode
  rw [← Text.toChars_ofChars cs, htext, Text.toChars_ofChars]

end Decoding

/-! ## Where characters begin -/

/-- A character has a first octet, which no other one can be taken for. -/
theorem encodeChar_eq_cons (c : Char) :
    ∃ b more, encodeChar c = b :: more ∧ ¬ Tail b ∧ ∀ a ∈ more, Tail a := by
  cases hbs : encodeChar c with
  | nil =>
    have h := sequence_encodeChar c
    rw [hbs] at h
    cases h
  | cons b more =>
    have h := sequence_encodeChar c
    rw [hbs] at h
    refine ⟨b, more, rfl, ?_, ?_⟩
    · rintro ⟨hlow, hhigh⟩
      cases h <;> omega
    · intro a ha
      cases h with
      | one h => cases ha
      | two h h' hb => simpa using List.mem_singleton.mp ha ▸ hb
      | three h h' hb hc hlong hsurrogate =>
        simp only [List.mem_cons, List.not_mem_nil, or_false] at ha
        rcases ha with rfl | rfl
        · exact hb
        · exact hc
      | four h h' hb hc hd hlong hlarge =>
        simp only [List.mem_cons, List.not_mem_nil, or_false] at ha
        rcases ha with rfl | rfl | rfl
        · exact hb
        · exact hc
        · exact hd

/-- No sequence is the beginning of another one: its first octet tells its length. -/
theorem sequence_unique {bs bs' rest rest' : List UInt8} (h : Sequence bs) (h' : Sequence bs')
    (heq : bs ++ rest = bs' ++ rest') : bs = bs' ∧ rest = rest' := by
  have hlength : bs.length = bs'.length := by
    cases h <;> cases h' <;> first
      | rfl
      | (obtain ⟨rfl, -⟩ := List.cons.inj heq
         omega)
  exact List.append_inj heq hlength

/-- **The octets of a character are found again among those of a text**: what stands around them are
the octets of the texts before it and behind it. -/
theorem exists_split {cs : List Char} {before behind : List UInt8} {c : Char}
    (h : cs.flatMap encodeChar = before ++ encodeChar c ++ behind) :
    ∃ xs ys, cs = xs ++ c :: ys ∧ xs.flatMap encodeChar = before
      ∧ ys.flatMap encodeChar = behind := by
  obtain ⟨b, more, hc, hfirst, -⟩ := encodeChar_eq_cons c
  induction cs generalizing before with
  | nil =>
    rw [hc] at h
    have hlength := congrArg List.length h
    simp at hlength
  | cons x cs ih =>
    obtain ⟨b', more', hx, -, hmore'⟩ := encodeChar_eq_cons x
    rw [List.flatMap_cons, List.append_assoc] at h
    cases before with
    | nil =>
      -- both characters come first
      obtain ⟨hchar, hrest⟩ := sequence_unique (sequence_encodeChar x) (sequence_encodeChar c) h
      have hsingle : [x].flatMap encodeChar = [c].flatMap encodeChar := by
        rw [List.flatMap_singleton, List.flatMap_singleton, hchar]
      obtain rfl : x = c := (List.cons.inj (flatMap_encodeChar_injective hsingle)).1
      exact ⟨[], cs, rfl, rfl, hrest⟩
    | cons a before =>
      rcases List.append_eq_append_iff.mp h with ⟨as, hbefore, hrest⟩ | ⟨as, hcut, hrest⟩
      · -- the first character stands before it
        rw [← List.append_assoc] at hrest
        obtain ⟨xs, ys, rfl, rfl, hys⟩ := ih hrest
        refine ⟨x :: xs, ys, rfl, ?_, hys⟩
        rw [List.flatMap_cons, hbefore]
      · cases as with
        | nil =>
          have hrest : cs.flatMap encodeChar = [] ++ encodeChar c ++ behind := hrest.symm
          obtain ⟨xs, ys, rfl, hxs, hys⟩ := ih hrest
          refine ⟨x :: xs, ys, rfl, ?_, hys⟩
          rw [List.flatMap_cons, hcut, hxs, List.append_nil, List.append_nil]
        | cons a' as =>
          -- the first octet of the character would be a further one of the character before it
          exfalso
          rw [hc] at hrest
          rw [hx] at hcut
          obtain ⟨rfl, -⟩ := List.cons.inj hrest
          obtain ⟨-, hmem⟩ := List.cons.inj hcut
          exact hfirst (hmore' b (by rw [hmem]; simp))

end Deeplink.Utf8

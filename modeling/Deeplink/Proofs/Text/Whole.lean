import Deeplink.Proofs.Text.Escapes
import Deeplink.Proofs.Text.Scalar

/-!
# Percent escapes and the whole text

Runs of octets are decoded on their own, between the code points above ASCII. It makes no
difference: the outcome is that of putting the octets of the whole text in a row, with every escape
replaced, and decoding them at once.

- `Percent.units_cases`: the first loose percent sign is what the units of a text fail at, and their
  octets are the unescaped ones.
- `Percent.assemble_eq_ok_iff`: it does not matter where the runs are cut.
- `Percent.decode_whole`: the outcome of decoding, for every text that has octets.
-/

namespace Deeplink.Percent

/-! ## Units -/

/-- The octets of a unit. -/
def Unit.octets : Unit → List UInt8
  | .octet b => [b]
  | .wide (.char c) => Utf8.encodeChar c
  | .wide (.surrogate _) => []

/-- The code points above ASCII are scalar values. -/
def Unit.IsScalar : Unit → Prop
  | .octet _ => True
  | .wide c => ∃ a, c = .char a

theorem plain_isScalar (c : Char) : (Unit.plain (.char c)).IsScalar := by
  unfold Unit.plain
  split
  · trivial
  · exact ⟨c, rfl⟩

theorem plain_octets (c : Char) : (Unit.plain (.char c)).octets = Utf8.encodeChar c := by
  by_cases h : c.toNat < 0x80
  · have hplain : Unit.plain (.char c) = .octet (UInt8.ofNat c.toNat) :=
      if_pos (decide_eq_true h)
    rw [hplain, Utf8.encodeChar_one h]
    rfl
  · have hplain : Unit.plain (.char c) = .wide (.char c) :=
      if_neg fun hascii => h (of_decide_eq_true hascii)
    rw [hplain]
    rfl

/-- How the units of a text at an offset come out: with the first loose percent sign, or with the
octets of the whole text. -/
inductive UnitsOf (cs : List Char) (offset : Nat) : Except Nat (List Unit) → Prop where
  | loose {n : Nat} (h : FirstLoose (Text.ofChars cs) n) : UnitsOf cs offset (.error (offset + n))
  | whole {us : List Unit} (hnone : ∀ i, ¬ Loose (Text.ofChars cs) i)
      (hscalar : ∀ u ∈ us, u.IsScalar)
      (hoctets : us.flatMap Unit.octets = unescaped (cs.flatMap Utf8.encodeChar)) :
      UnitsOf cs offset (.ok us)

section Units

variable {cs : List Char} {offset : Nat}

/-- A character that is no percent sign is passed. -/
theorem UnitsOf.plain {c : Char} (hc : c ≠ '%') {r : Except Nat (List Unit)}
    (h : UnitsOf cs (offset + 1) r) :
    UnitsOf (c :: cs) offset (r.map (Unit.plain (.char c) :: ·)) := by
  have hzero : ¬ Loose (Text.ofChars (c :: cs)) 0 :=
    not_loose_zero fun heq => hc (CodePoint.char.inj heq)
  cases h with
  | @loose n h =>
    have hfirst : FirstLoose (Text.ofChars (c :: cs)) (n + 1) := h.cons hzero
    have hoffset : offset + 1 + n = offset + (n + 1) := by omega
    rw [hoffset]
    exact .loose hfirst
  | @whole us hnone hscalar hoctets =>
    refine .whole (forall_not_loose_cons hzero hnone) ?_ ?_
    · intro u hu
      rcases List.mem_cons.mp hu with rfl | hu
      · exact plain_isScalar c
      · exact hscalar u hu
    · rw [List.flatMap_cons, plain_octets, hoctets, List.flatMap_cons,
        unescaped_append (octet_ne_percent hc)]

/-- An escape is one octet. -/
theorem UnitsOf.escape {high low : Char} {h l : Nat} (hhigh : digit? high = some h)
    (hlow : digit? low = some l) {r : Except Nat (List Unit)} (hr : UnitsOf cs (offset + 3) r) :
    UnitsOf ('%' :: high :: low :: cs) offset (r.map (.octet (UInt8.ofNat (16 * h + l)) :: ·)) := by
  have hzero : ¬ Loose (Text.ofChars ('%' :: high :: low :: cs)) 0 := by
    rintro ⟨-, hdigits⟩
    exact hdigits ⟨high, low, rfl, rfl, by rw [hhigh]; rfl, by rw [hlow]; rfl⟩
  have hone : ¬ Loose (Text.ofChars (high :: low :: cs)) 0 := not_loose_digit hhigh
  have htwo : ¬ Loose (Text.ofChars (low :: cs)) 0 := not_loose_digit hlow
  cases hr with
  | @loose n hn =>
    have hfirst : FirstLoose (Text.ofChars ('%' :: high :: low :: cs)) (n + 1 + 1 + 1) :=
      .cons hzero (.cons hone (.cons htwo hn))
    have hoffset : offset + 3 + n = offset + (n + 1 + 1 + 1) := by omega
    rw [hoffset]
    exact .loose hfirst
  | @whole us hnone hscalar hoctets =>
    have hall : ∀ i, ¬ Loose (Text.ofChars ('%' :: high :: low :: cs)) i :=
      forall_not_loose_cons hzero (forall_not_loose_cons hone (forall_not_loose_cons htwo hnone))
    refine .whole hall ?_ ?_
    · intro u hu
      rcases List.mem_cons.mp hu with rfl | hu
      · trivial
      · exact hscalar u hu
    · obtain ⟨hhigh, hhigh'⟩ := encodeChar_of_digit hhigh
      obtain ⟨hlow, hlow'⟩ := encodeChar_of_digit hlow
      have hmark : Utf8.encodeChar '%' = [0x25] := by decide
      simp only [List.flatMap_cons, hmark, hhigh, hlow, List.singleton_append]
      rw [unescaped_escape hhigh' hlow', hoctets]
      rfl

/-- A character that is no percent sign is a unit by itself. -/
theorem units_cons {c : CodePoint} (hc : c ≠ .char '%') (t : Text) :
    units offset (c :: t) = (units (offset + 1) t).map (Unit.plain c :: ·) := by
  rw [units.eq_def offset (c :: t)]
  simp only [if_neg hc]
  cases units (offset + 1) t <;> rfl

/-- A percent sign with two digits behind it is an octet. -/
theorem units_octet {high low : CodePoint} {b : UInt8} (hb : octet? high low = some b) (t : Text) :
    units offset (.char '%' :: high :: low :: t)
      = (units (offset + 3) t).map (Unit.octet b :: ·) := by
  rw [units.eq_def offset (.char '%' :: high :: low :: t)]
  simp only [hb, if_true]
  cases units (offset + 3) t <;> rfl

/-- A percent sign without two digits behind it is loose. -/
theorem units_loose {t : Text}
    (h : ∀ high low rest, t = high :: low :: rest → octet? high low = none) :
    units offset (.char '%' :: t) = .error offset := by
  unfold units
  rw [if_pos rfl]
  match t with
  | [] => rfl
  | [c] => rfl
  | high :: low :: rest => simp only [h high low rest rfl]

/-- A percent sign that digits do not follow is loose. -/
theorem UnitsOf.mark
    (h : ∀ high low rest, cs = high :: low :: rest → digit? high = none ∨ digit? low = none) :
    UnitsOf ('%' :: cs) offset (.error offset) := by
  have hloose : Loose (Text.ofChars ('%' :: cs)) 0 := by
    refine ⟨rfl, ?_⟩
    rintro ⟨high, low, hhigh, hlow, hdigit, hdigit'⟩
    match cs, hhigh, hlow with
    | a :: b :: rest, hhigh, hlow =>
      obtain rfl : a = high := CodePoint.char.inj (Option.some.inj hhigh)
      obtain rfl : b = low := CodePoint.char.inj (Option.some.inj hlow)
      rcases h a b rest rfl with hnone | hnone
      · rw [hnone] at hdigit
        cases hdigit
      · rw [hnone] at hdigit'
        cases hdigit'
  exact .loose (n := 0) ⟨hloose, fun i hi => absurd hi (Nat.not_lt_zero i)⟩

/-- The two digits are worth sixteen and one. -/
theorem octet?_char (high low : Char) : octet? (.char high) (.char low)
    = (digit? high).bind fun h => (digit? low).map fun l => UInt8.ofNat (16 * h + l) := by
  rw [octet?, hexValue?_char, hexValue?_char]
  cases digit? high <;> cases digit? low <;> rfl

/-- **The units of a text**: strong induction on its length, as an escape takes three characters. -/
theorem units_cases (cs : List Char) (offset : Nat) :
    UnitsOf cs offset (units offset (Text.ofChars cs)) := by
  induction hn : cs.length using Nat.strongRecOn generalizing cs offset with
  | ind n ih =>
    cases cs with
    | nil => exact .whole (fun i h => nomatch h.1) (fun u hu => nomatch hu) rfl
    | cons c cs =>
      by_cases hc : c = '%'
      · subst hc
        by_cases hdigits : ∃ high low rest h l, cs = high :: low :: rest ∧ digit? high = some h
          ∧ digit? low = some l
        · obtain ⟨high, low, rest, h, l, rfl, hhigh, hlow⟩ := hdigits
          have hoctet : octet? (.char high) (.char low) = some (UInt8.ofNat (16 * h + l)) := by
            rw [octet?_char, hhigh, hlow]
            rfl
          have hrest : rest.length < n := by
            simp only [List.length_cons] at hn
            omega
          show UnitsOf _ _
            (units offset (.char '%' :: .char high :: .char low :: Text.ofChars rest))
          rw [units_octet hoctet]
          exact (ih rest.length hrest rest (offset + 3) rfl).escape hhigh hlow
        · have hnone (high low : Char) (rest : List Char) (heq : cs = high :: low :: rest) :
              digit? high = none ∨ digit? low = none := by
            cases hhigh : digit? high with
            | none => exact .inl rfl
            | some h =>
              cases hlow : digit? low with
              | none => exact .inr rfl
              | some l => exact absurd ⟨high, low, rest, h, l, heq, hhigh, hlow⟩ hdigits
          show UnitsOf _ _ (units offset (.char '%' :: Text.ofChars cs))
          rw [units_loose]
          · exact .mark hnone
          · intro high low rest heq
            match cs, heq with
            | a :: b :: more, heq =>
              simp only [Text.ofChars, List.map_cons, List.cons.injEq] at heq
              obtain ⟨rfl, rfl, -⟩ := heq
              rw [octet?_char]
              rcases hnone a b more rfl with hnone | hnone
              · rw [hnone]
                rfl
              · rw [hnone]
                cases digit? a <;> rfl
      · have hne : CodePoint.char c ≠ .char '%' := fun h => hc (CodePoint.char.inj h)
        have hcs : cs.length < n := by
          rw [← hn]
          exact Nat.lt_succ_self _
        show UnitsOf _ _ (units offset (.char c :: Text.ofChars cs))
        rw [units_cons hne]
        exact (ih cs.length hcs cs (offset + 1) rfl).plain hc

end Units

/-! ## Runs -/

/-- **Where the runs are cut makes no difference**: they are the octets of texts exactly when
their octets in a row are those of one. -/
theorem assemble_eq_ok_iff {us : List Unit} (hscalar : ∀ u ∈ us, u.IsScalar) (run : List UInt8)
    (t : Text) : assemble run us = .ok t ↔ ∃ cs, t = Text.ofChars cs
      ∧ cs.flatMap Utf8.encodeChar = run.reverse ++ us.flatMap Unit.octets := by
  induction us generalizing run t with
  | nil =>
    rw [assemble, Utf8.decode_eq_ok_iff, List.flatMap_nil, List.append_nil]
  | cons u us ih =>
    have hmore : ∀ u ∈ us, u.IsScalar := fun v hv => hscalar v (List.mem_cons_of_mem u hv)
    have hu := hscalar u List.mem_cons_self
    cases u with
    | octet b =>
      rw [assemble, ih hmore, List.reverse_cons, List.append_assoc, List.flatMap_cons]
      rfl
    | wide c =>
      obtain ⟨a, rfl⟩ := hu
      have hcut : run.reverse ++ (Unit.wide (.char a) :: us).flatMap Unit.octets
          = run.reverse ++ Utf8.encodeChar a ++ us.flatMap Unit.octets := by
        rw [List.flatMap_cons, List.append_assoc]
        rfl
      rw [assemble, hcut]
      constructor
      · intro h
        cases hfront : Utf8.decode run.reverse with
        | error fault =>
          rw [hfront] at h
          cases h
        | ok front =>
          rw [hfront] at h
          cases hback : assemble [] us with
          | error fault =>
            rw [hback] at h
            cases h
          | ok back =>
            rw [hback] at h
            obtain rfl := Except.ok.inj h
            obtain ⟨xs, rfl, hxs⟩ := (Utf8.decode_eq_ok_iff _ _).mp hfront
            obtain ⟨ys, rfl, hys⟩ := (ih hmore [] back).mp hback
            refine ⟨xs ++ a :: ys, by simp [Text.ofChars], ?_⟩
            rw [List.flatMap_append, List.flatMap_cons, hxs, hys, List.append_assoc]
            rfl
      · rintro ⟨cs, rfl, hoctets⟩
        -- the character above ASCII is found again in the text of the whole row
        obtain ⟨xs, ys, rfl, hxs, hys⟩ := Utf8.exists_split hoctets
        have hfront : Utf8.decode run.reverse = .ok (Text.ofChars xs) :=
          (Utf8.decode_eq_ok_iff _ _).mpr ⟨xs, rfl, hxs⟩
        have hback : assemble [] us = .ok (Text.ofChars ys) := (ih hmore [] _).mpr ⟨ys, rfl, hys⟩
        rw [hfront, hback]
        simp [Text.ofChars]
        rfl

/-! ## Texts -/

section Decode

/-- A text with a loose percent sign is malformed there. -/
theorem decode_of_loose {raw : Text} {n : Nat} (h : units 0 raw = .error n) :
    decode raw = .error (.malformed n) := by
  rw [decode, h]

/-- A text without a loose percent sign is assembled from its units. -/
theorem decode_of_units {raw : Text} {us : List Unit} (h : units 0 raw = .ok us) :
    decode raw = (assemble [] us).mapError .octets := by
  rw [decode, h]
  cases hresult : assemble [] us <;> simp only [hresult] <;> rfl

/-- A text is decoded exactly when no percent sign in it is loose and its unescaped octets are those
of a text, which then is the outcome. -/
theorem decode_eq_ok_iff (cs : List Char) (t : Text) :
    decode (Text.ofChars cs) = .ok t ↔ (∀ i, ¬ Loose (Text.ofChars cs) i) ∧ ∃ s, t = Text.ofChars s
      ∧ s.flatMap Utf8.encodeChar = unescaped (cs.flatMap Utf8.encodeChar) := by
  have hunits := units_cases cs 0
  cases hr : units 0 (Text.ofChars cs) with
  | error offset =>
    rw [hr] at hunits
    rw [decode_of_loose hr]
    cases hunits with
    | loose hfirst =>
      constructor
      · intro h
        cases h
      · rintro ⟨hnone, -⟩
        exact absurd hfirst.1 (hnone _)
  | ok us =>
    rw [hr] at hunits
    rw [decode_of_units hr]
    cases hunits with
    | whole hnone hscalar hoctets =>
      have hassemble := assemble_eq_ok_iff hscalar [] t
      rw [hoctets, List.reverse_nil, List.nil_append] at hassemble
      rw [← hassemble]
      cases assemble [] us with
      | error fault => exact ⟨(nomatch ·), (nomatch ·.2)⟩
      | ok s => exact ⟨fun h => ⟨hnone, congrArg _ (Except.ok.inj h)⟩,
          fun h => congrArg _ (Except.ok.inj h.2)⟩

/-- **What is malformed** is malformed at its first loose percent sign. -/
theorem decode_eq_malformed_iff (cs : List Char) (n : Nat) :
    decode (Text.ofChars cs) = .error (.malformed n) ↔ FirstLoose (Text.ofChars cs) n := by
  have hunits := units_cases cs 0
  cases hr : units 0 (Text.ofChars cs) with
  | error offset =>
    rw [hr] at hunits
    rw [decode_of_loose hr]
    cases hunits with
    | @loose m hfirst =>
      rw [Nat.zero_add]
      constructor
      · intro h
        cases h
        exact hfirst
      · intro h
        rw [h.unique hfirst]
  | ok us =>
    rw [hr] at hunits
    rw [decode_of_units hr]
    cases hunits with
    | whole hnone hscalar hoctets =>
      constructor
      · cases assemble [] us with
        | error fault => exact fun h => nomatch Except.error.inj h
        | ok s => exact fun h => nomatch h
      · intro h
        exact absurd h.1 (hnone n)

/-! ### What stays -/

/-- **A character that no escape has stays where it is**, and what stands before it and behind it is
decoded on its own. -/
theorem decode_part {c : Char} (hc : c ≠ '%') (hdigit : digit? c = none) {xs ys : List Char}
    {t : Text} (h : decode (Text.ofChars (xs ++ c :: ys)) = .ok t) :
    ∃ front back, decode (Text.ofChars xs) = .ok front ∧ decode (Text.ofChars ys) = .ok back
      ∧ t = front ++ .char c :: back := by
  have htext : Text.ofChars (xs ++ c :: ys) = Text.ofChars xs ++ .char c :: Text.ofChars ys := by
    simp [Text.ofChars]
  obtain ⟨hnone, s, rfl, hs⟩ := (decode_eq_ok_iff _ _).mp h
  rw [htext] at hnone
  obtain ⟨b, more, hoctets, -, -⟩ := Utf8.encodeChar_eq_cons c
  have hoctet := octet_ne_percent hc
  have hb : octetDigit? b = none := by
    apply octetDigit?_eq_none hdigit
    rw [hoctets]
    exact List.mem_cons_self
  have hsplit : s.flatMap Utf8.encodeChar = unescaped (xs.flatMap Utf8.encodeChar)
      ++ Utf8.encodeChar c ++ unescaped (ys.flatMap Utf8.encodeChar) := by
    rw [hoctets] at hoctet
    rw [hs, List.flatMap_append, List.flatMap_cons, hoctets, List.cons_append,
      unescaped_part (hoctet b List.mem_cons_self) hb,
      unescaped_append fun a ha => hoctet a (List.mem_cons_of_mem b ha)]
    simp
  obtain ⟨xs', ys', rfl, hxs, hys⟩ := Utf8.exists_split hsplit
  refine ⟨Text.ofChars xs', Text.ofChars ys', ?_, ?_, by simp [Text.ofChars]⟩
  · refine (decode_eq_ok_iff _ _).mpr ⟨?_, xs', rfl, hxs⟩
    intro i hi
    exact hnone i (hi.append hdigit _)
  · refine (decode_eq_ok_iff _ _).mpr ⟨?_, ys', rfl, hys⟩
    intro i hi
    rw [List.append_cons] at hnone
    exact hnone _ (hi.behind _)

/-! ### The outcome of decoding -/

theorem encode_eq_ok_iff (t : Text) (bs : List UInt8) :
    Utf8.encode t = .ok bs ↔ ∃ cs, t = Text.ofChars cs ∧ cs.flatMap Utf8.encodeChar = bs := by
  constructor
  · intro h
    rw [Utf8.encode] at h
    cases hfirst : Utf8.firstSurrogates? t with
    | none =>
      rw [hfirst] at h
      have hscalar := (Utf8.firstSurrogates?_eq_none_iff t).mp hfirst
      exact ⟨t.toChars, (Text.ofChars_toChars hscalar).symm, Except.ok.inj h⟩
    | some fault =>
      rw [hfirst] at h
      cases h
  · rintro ⟨cs, rfl, rfl⟩
    have hfirst := (Utf8.firstSurrogates?_eq_none_iff (Text.ofChars cs)).mpr
      (Text.isScalar_ofChars cs)
    rw [Utf8.encode, hfirst, Text.toChars_ofChars]

/-- **Decoding is decoding as a whole.** It fails at the first loose percent sign if there is one.
Otherwise the unescaped octets decide: if they are well-formed the outcome is the one text that has
them, and if they are not decoding fails. A character that neither is a percent sign nor a digit,
such as `+`, stays. -/
theorem decode_whole (raw : Text) {octets : List UInt8} (hoctets : Utf8.encode raw = .ok octets) :
    (∀ n, decode raw = .error (.malformed n) ↔ FirstLoose raw n)
      ∧ ((∀ i, ¬ Loose raw i) →
        (∀ t, decode raw = .ok t ↔ Utf8.WellFormed (unescaped octets)
            ∧ ∀ t', Utf8.encode t' = .ok (unescaped octets) ↔ t' = t)
          ∧ ((∃ fault, decode raw = .error (.octets fault))
            ↔ ¬ Utf8.WellFormed (unescaped octets)))
      ∧ ∀ front c back t, raw = front ++ .char c :: back → c ≠ '%' → digit? c = none →
        decode raw = .ok t → ∃ s s', decode front = .ok s ∧ decode back = .ok s'
          ∧ t = s ++ .char c :: s' := by
  obtain ⟨cs, rfl, rfl⟩ := (encode_eq_ok_iff _ _).mp hoctets
  refine ⟨decode_eq_malformed_iff cs, ?_, ?_⟩
  · intro hnone
    have hok (t : Text) : decode (Text.ofChars cs) = .ok t
        ↔ Utf8.encode t = .ok (unescaped (cs.flatMap Utf8.encodeChar)) := by
      rw [decode_eq_ok_iff, encode_eq_ok_iff]
      exact and_iff_right hnone
    constructor
    · intro t
      rw [hok]
      constructor
      · intro h
        obtain ⟨s, rfl, hs⟩ := (encode_eq_ok_iff _ _).mp h
        refine ⟨(Utf8.wellFormed_iff _).mpr ⟨s, hs⟩, ?_⟩
        intro t'
        constructor
        · intro h'
          obtain ⟨s', rfl, hs'⟩ := (encode_eq_ok_iff _ _).mp h'
          rw [Utf8.flatMap_encodeChar_injective (hs'.trans hs.symm)]
        · rintro rfl
          exact h
      · rintro ⟨-, hunique⟩
        exact (hunique t).mpr rfl
    · constructor
      · rintro ⟨fault, hfault⟩ hformed
        obtain ⟨s, hs⟩ := (Utf8.wellFormed_iff _).mp hformed
        have h := (hok (Text.ofChars s)).mpr ((encode_eq_ok_iff _ _).mpr ⟨s, rfl, hs⟩)
        rw [hfault] at h
        cases h
      · intro hformed
        cases h : decode (Text.ofChars cs) with
        | error fault =>
          cases fault with
          | malformed n => exact absurd ((decode_eq_malformed_iff cs n).mp h).1 (hnone n)
          | octets fault => exact ⟨fault, rfl⟩
        | ok t =>
          obtain ⟨s, -, hs⟩ := (encode_eq_ok_iff _ _).mp ((hok t).mp h)
          exact absurd ((Utf8.wellFormed_iff _).mpr ⟨s, hs⟩) hformed
  · intro front c back t hraw hc hdigit h
    obtain ⟨xs, rest, rfl, rfl, hrest⟩ := List.map_eq_append_iff.mp hraw
    obtain ⟨c', ys, rfl, hc', rfl⟩ := List.map_eq_cons_iff.mp hrest
    obtain rfl : c' = c := CodePoint.char.inj hc'
    exact decode_part hc hdigit h

theorem eq_ok_of_toOption {ε α : Type} {x : Except ε α} {a : α} (h : x.toOption = some a) :
    x = .ok a := by
  cases x with
  | error e => cases h
  | ok b => exact congrArg _ (Option.some.inj h)

/-- Escapes and characters above ASCII next to each other: `%E2%82%ac+é` stands for `€+é` alone. -/
theorem decode_euro :
    unescaped [0x25, 0x45, 0x32, 0x25, 0x38, 0x32, 0x25, 0x61, 0x63, 0x2B, 0xC3, 0xA9]
        = [0xE2, 0x82, 0xAC, 0x2B, 0xC3, 0xA9]
      ∧ Utf8.WellFormed [0xE2, 0x82, 0xAC, 0x2B, 0xC3, 0xA9]
      ∧ decode "%E2%82%ac+é" = .ok "€+é"
      ∧ ∀ t, Utf8.encode t = .ok [0xE2, 0x82, 0xAC, 0x2B, 0xC3, 0xA9] ↔ t = "€+é" := by
  have hdecode : decode "%E2%82%ac+é" = .ok "€+é" :=
    eq_ok_of_toOption (by decide +kernel)
  have hnone := ((decode_eq_ok_iff "%E2%82%ac+é".toList "€+é").mp hdecode).1
  have hwhole := @decode_whole "%E2%82%ac+é"
    [0x25, 0x45, 0x32, 0x25, 0x38, 0x32, 0x25, 0x61, 0x63, 0x2B, 0xC3, 0xA9]
    (eq_ok_of_toOption (by decide +kernel))
  have hbytes : unescaped [0x25, 0x45, 0x32, 0x25, 0x38, 0x32, 0x25, 0x61, 0x63, 0x2B, 0xC3, 0xA9]
      = [0xE2, 0x82, 0xAC, 0x2B, 0xC3, 0xA9] := by decide +kernel
  rw [hbytes] at hwhole
  obtain ⟨hformed, hunique⟩ := ((hwhole.2.1 hnone).1 "€+é").mp hdecode
  exact ⟨hbytes, hformed, hdecode, hunique⟩

end Decode

end Deeplink.Percent

import Deeplink.Log.Root
import Mathlib.Data.List.Basic

/-!
# Levels by name

A level is given as a text in any case. Its capitals are looked for among the names of levels, but
also among other names that the logging system knows. The level is one of the settings
(specification, 10.1), which do not check it.

- `Log.Capitals`: the capitals of a text, as far as they are ASCII.
- `Log.capitals?_eq_some_iff`: they are found.
- `Log.Names`, `Log.Means`: the level of a text; a text that names none means `INFO`.
- `Log.Misread`: the texts that are taken for something else.
- `Log.Root.setLevel_of_means`, `Log.Root.setLevel_of_misread`: all other texts set the level that
  they mean.
-/

namespace Deeplink.Log

variable {t : Text} {cs : List Char}

/-! ## Capitals -/

/-- The characters outside ASCII whose capitals are in it. -/
def foreignLetters : List (Char × List Char) :=
  [('ß', ['S', 'S']), ('ı', ['I']), ('ſ', ['S']), ('ﬀ', ['F', 'F']), ('ﬁ', ['F', 'I']),
    ('ﬂ', ['F', 'L']), ('ﬃ', ['F', 'F', 'I']), ('ﬄ', ['F', 'F', 'L']), ('ﬅ', ['S', 'T']),
    ('ﬆ', ['S', 'T'])]

/-- The capitals of a text are these ASCII characters. -/
inductive Capitals : Text → List Char → Prop where
  | nil : Capitals [] []
  | ascii {c : Char} {t : Text} {cs : List Char} (hc : c.toNat < 0x80) (h : Capitals t cs) :
      Capitals (.char c :: t) (c.toUpper :: cs)
  | foreign {c : Char} {ds : List Char} {t : Text} {cs : List Char}
      (hc : (c, ds) ∈ foreignLetters) (h : Capitals t cs) : Capitals (.char c :: t) (ds ++ cs)

theorem asciiCapitals?_of_ascii {c : Char} (hc : c.toNat < 0x80) :
    asciiCapitals? (.char c) = some [c.toUpper] :=
  if_pos hc

theorem asciiCapitals?_of_mem {c : Char} {ds : List Char} (hc : (c, ds) ∈ foreignLetters) :
    asciiCapitals? (.char c) = some ds := by
  have hall : ∀ p ∈ foreignLetters, asciiCapitals? (.char p.1) = some p.2 := by decide
  exact hall (c, ds) hc

/-- A code point is known by its number. -/
theorem eq_char_of_toNat {c : CodePoint} {x : Char} (h : c.toNat = x.toNat) : c = .char x := by
  rw [← CodePoint.ofNat_toNat c, ← CodePoint.ofNat_toNat (.char x), h]
  rfl

/-- No other code point has ASCII capitals. -/
theorem eq_char_of_asciiCapitals? {c : CodePoint} {ds : List Char}
    (h : asciiCapitals? c = some ds) :
    ∃ x, c = .char x ∧ (x.toNat < 0x80 ∧ ds = [x.toUpper] ∨ (x, ds) ∈ foreignLetters) := by
  have hforeign {es : List Char} (x : Char) (hx : (x, es) ∈ foreignLetters)
      (hc : c.toNat = x.toNat) (hds : some es = some ds) :
      ∃ x, c = .char x ∧ (x.toNat < 0x80 ∧ ds = [x.toUpper] ∨ (x, ds) ∈ foreignLetters) :=
    ⟨x, eq_char_of_toNat hc, .inr (Option.some.inj hds ▸ hx)⟩
  dsimp only [asciiCapitals?] at h
  rcases ite_eq_iff.mp h with ⟨hc, h⟩ | ⟨-, h⟩
  · obtain ⟨x, hx, rfl⟩ := Option.map_eq_some_iff.mp h
    cases c with
    | char y =>
      obtain rfl := Option.some.inj hx
      exact ⟨y, rfl, .inl ⟨hc, rfl⟩⟩
    | surrogate i => cases hx
  · -- the letters outside ASCII one after the other; none is left in the end
    rcases ite_eq_iff.mp h with ⟨hx, hds⟩ | ⟨-, h⟩
    · exact hforeign 'ß' (by decide) hx hds
    rcases ite_eq_iff.mp h with ⟨hx, hds⟩ | ⟨-, h⟩
    · exact hforeign 'ı' (by decide) hx hds
    rcases ite_eq_iff.mp h with ⟨hx, hds⟩ | ⟨-, h⟩
    · exact hforeign 'ſ' (by decide) hx hds
    rcases ite_eq_iff.mp h with ⟨hx, hds⟩ | ⟨-, h⟩
    · exact hforeign 'ﬀ' (by decide) hx hds
    rcases ite_eq_iff.mp h with ⟨hx, hds⟩ | ⟨-, h⟩
    · exact hforeign 'ﬁ' (by decide) hx hds
    rcases ite_eq_iff.mp h with ⟨hx, hds⟩ | ⟨-, h⟩
    · exact hforeign 'ﬂ' (by decide) hx hds
    rcases ite_eq_iff.mp h with ⟨hx, hds⟩ | ⟨-, h⟩
    · exact hforeign 'ﬃ' (by decide) hx hds
    rcases ite_eq_iff.mp h with ⟨hx, hds⟩ | ⟨-, h⟩
    · exact hforeign 'ﬄ' (by decide) hx hds
    rcases ite_eq_iff.mp h with ⟨hx, hds⟩ | ⟨-, h⟩
    · exact hforeign 'ﬅ' (by decide) hx hds
    rcases ite_eq_iff.mp h with ⟨hx, hds⟩ | ⟨-, h⟩
    · exact hforeign 'ﬆ' (by decide) hx hds
    cases h

theorem capitals?_cons (c : CodePoint) (t : Text) :
    capitals? (c :: t)
      = (asciiCapitals? c).bind fun ds => (capitals? t).map fun cs => ds ++ cs := by
  unfold capitals?
  rw [List.mapM_cons]
  cases asciiCapitals? c with
  | none => rfl
  | some ds =>
    cases t.mapM asciiCapitals? with
    | none => rfl
    | some rest => rfl

/-- **The capitals of a text are found exactly if they are ASCII.** -/
theorem capitals?_eq_some_iff : capitals? t = some cs ↔ Capitals t cs := by
  constructor
  · intro h
    -- character by character: each one has capitals of its own, and they come first
    induction t generalizing cs with
    | nil =>
      obtain rfl := Option.some.inj h
      exact .nil
    | cons c t ih =>
      rw [capitals?_cons, Option.bind_eq_some_iff] at h
      obtain ⟨ds, hds, h⟩ := h
      obtain ⟨rest, hrest, rfl⟩ := Option.map_eq_some_iff.mp h
      obtain ⟨x, rfl, ⟨hx, rfl⟩ | hx⟩ := eq_char_of_asciiCapitals? hds
      · exact .ascii hx (ih hrest)
      · exact .foreign hx (ih hrest)
  · intro h
    induction h with
    | nil => rfl
    | ascii hc _ ih =>
      rw [capitals?_cons, asciiCapitals?_of_ascii hc, Option.bind_some, ih]
      rfl
    | foreign hc _ ih =>
      rw [capitals?_cons, asciiCapitals?_of_mem hc, Option.bind_some, ih]
      rfl

/-! ## Names -/

/-- The names of levels. -/
def standardNames : List (String × Int) :=
  [("NOTSET", 0), ("DEBUG", 10), ("INFO", 20), ("WARN", 30), ("WARNING", 30), ("ERROR", 40),
    ("FATAL", 50), ("CRITICAL", 50)]

/-- The capitals of the text are a name of the level. -/
def Names (t : Text) (n : Int) : Prop :=
  ∃ name, (name, n) ∈ standardNames ∧ Capitals t name.toList

/-- A text that names no level means `INFO`. -/
def Means (t : Text) (n : Int) : Prop := Names t n ∨ n = 20 ∧ ¬ ∃ m, Names t m

/-- Two names are those of settings of the logging system that are no levels. -/
inductive Misread : Text → LevelFault → Prop where
  | recordFormat {t : Text} (h : Capitals t "BASIC_FORMAT".toList) :
      Misread t (.unknown recordFormat)
  | formatStyles {t : Text} (h : Capitals t "_STYLES".toList) :
      Misread t (.notALevel formatStyles)

theorem resolve_of_capitals (h : Capitals t cs) :
    resolve t = (knownNames.lookup cs).getD (.level 20) := by
  rw [resolve, capitals?_eq_some_iff.mpr h, Option.bind_some]

/-- A text that names a level means it. -/
theorem resolve_of_names {n : Int} (h : Names t n) : resolve t = .level n := by
  obtain ⟨name, hname, hcapitals⟩ := h
  have hall : ∀ p ∈ standardNames,
      (knownNames.lookup p.1.toList).getD (.level 20) = .level p.2 := by decide
  rw [resolve_of_capitals hcapitals]
  exact hall (name, n) hname

/-- A text is misread if it names something else that stands beside the levels. -/
theorem resolve_of_misread {fault : LevelFault} (h : Misread t fault) :
    resolve t = .recordFormat ∧ fault = .unknown recordFormat
      ∨ resolve t = .formatStyles ∧ fault = .notALevel formatStyles := by
  cases h with
  | recordFormat h => exact .inl ⟨resolve_of_capitals h, rfl⟩
  | formatStyles h => exact .inr ⟨resolve_of_capitals h, rfl⟩

example : resolve "_ſtyles" = .formatStyles := by decide

/-- No other name is known. -/
theorem names_or_misread_of_mem {x : Resolved} (h : Capitals t cs) (hx : (cs, x) ∈ knownNames) :
    (∃ n, Names t n) ∨ ∃ fault, Misread t fault := by
  have hall : ∀ p ∈ knownNames, (∃ q ∈ standardNames, p.1 = q.1.toList)
      ∨ p.1 = "BASIC_FORMAT".toList ∨ p.1 = "_STYLES".toList := by decide
  rcases hall (cs, x) hx with ⟨⟨name, n⟩, hname, rfl⟩ | rfl | rfl
  · exact .inl ⟨n, name, hname, h⟩
  · exact .inr ⟨_, .recordFormat h⟩
  · exact .inr ⟨_, .formatStyles h⟩

/-- Unless it is misread, a text is resolved to the level that it means. -/
theorem resolve_of_means {n : Int} (h : Means t n) (hread : ¬ ∃ fault, Misread t fault) :
    resolve t = .level n := by
  rcases h with h | ⟨rfl, hnone⟩
  · exact resolve_of_names h
  · -- a name that were known would be one of a level, or be misread
    unfold resolve
    cases hcapitals : capitals? t with
    | none => rfl
    | some cs =>
      rw [Option.bind_some]
      cases hlookup : knownNames.lookup cs with
      | none => rfl
      | some x =>
        obtain ⟨before, after, hknown, -⟩ := List.lookup_eq_some_iff.mp hlookup
        have hx : (cs, x) ∈ knownNames := by simp [hknown]
        have hknown := names_or_misread_of_mem (capitals?_eq_some_iff.mp hcapitals) hx
        exact absurd hknown (not_or.mpr ⟨hnone, hread⟩)

/-- A text that is misread names no level, so that it means `INFO`. -/
theorem Misread.means {fault : LevelFault} (h : Misread t fault) : Means t 20 := by
  refine .inr ⟨rfl, ?_⟩
  rintro ⟨n, hn⟩
  rcases resolve_of_misread h with ⟨hresolve, -⟩ | ⟨hresolve, -⟩
  · rw [resolve_of_names hn] at hresolve
    cases hresolve
  · rw [resolve_of_names hn] at hresolve
    cases hresolve

/-- A text means one level. -/
theorem means_unique (t : Text) : ∃! n, Means t n := by
  by_cases h : ∃ n, Names t n
  · obtain ⟨n, hn⟩ := h
    refine ⟨n, .inl hn, fun m hm => ?_⟩
    rcases hm with hm | ⟨-, hnone⟩
    · exact Resolved.level.inj ((resolve_of_names hm).symm.trans (resolve_of_names hn))
    · exact absurd ⟨n, hn⟩ hnone
  · refine ⟨20, .inr ⟨rfl, h⟩, fun m hm => ?_⟩
    rcases hm with hm | ⟨rfl, -⟩
    · exact absurd ⟨m, hm⟩ h
    · rfl

/-! ## Setting levels -/

namespace Root

variable {n : Int} {fault : LevelFault}

/-- **A text sets the level that it means**, if it is not misread. -/
theorem setLevel_of_means (h : Means t n) (hread : ¬ ∃ fault, Misread t fault) (r : Root) :
    r.setLevel t = (.ok (), { r with level := n }) := by
  rw [setLevel, resolve_of_means h hread]

/-- **A text that is misread fails**, and the level stays. -/
theorem setLevel_of_misread (h : Misread t fault) (r : Root) :
    r.setLevel t = (.error fault, r) := by
  rcases resolve_of_misread h with ⟨hresolve, rfl⟩ | ⟨hresolve, rfl⟩
  · rw [setLevel, hresolve]
  · rw [setLevel, hresolve]

/-- No other text fails. -/
theorem setLevel_fails_iff {r : Root} : (r.setLevel t).1 = .error fault ↔ Misread t fault := by
  constructor
  · intro hset
    by_cases hsome : ∃ fault, Misread t fault
    · obtain ⟨fault', hread⟩ := hsome
      rw [setLevel_of_misread hread] at hset
      exact Except.error.inj hset ▸ hread
    · obtain ⟨n, hn, -⟩ := means_unique t
      rw [setLevel_of_means hn hsome] at hset
      cases hset
  · intro hread
    rw [setLevel_of_misread hread]

/-- To set a level succeeds unless its text is misread. -/
theorem setLevel_succeeds_iff {r : Root} :
    (r.setLevel t).1 = .ok () ↔ ¬ ∃ fault, Misread t fault := by
  constructor
  · rintro hset ⟨fault, hread⟩
    rw [setLevel_fails_iff.mpr hread] at hset
    cases hset
  · intro hread
    obtain ⟨n, hn, -⟩ := means_unique t
    rw [setLevel_of_means hn hread]

end Root

end Deeplink.Log

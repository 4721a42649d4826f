import Deeplink.Settings
import Mathlib.Data.List.Basic

/-!
# The level in settings

The settings take the level of the log from the environment as it is. No text is refused here, and
no other field depends on it. The settings are read from the environment (specification, 10.1).

- `Settings.valueOf`: what an environment gives for a field.
- `Settings.lookup_givenBy`: a field that is no list is given as the text of its variable.
- `Settings.AgreeBut`: the same values are given for every field but one.
- `Settings.check_level`: the level has a check that passes, and a place of its own.
- `Settings.build_level`: environments that differ in the level give settings that differ in the
  level, or the same fault.
-/

namespace Deeplink.Settings

variable {f g : Field} {fields : List Field} {env env' : Environment} {given given' rest : Given}
  {v : Option Json}

/-! ## Values that are given -/

/-- What an environment gives for a field. -/
def valueOf (env : Environment) (f : Field) : Except Fault (Option Json) :=
  match env.field? f with
  | none => .ok none
  | some t => variableValue f t

/-- A value in front of those for other fields. -/
def inFront (f : Field) (v : Option Json) (rest : Given) : Given :=
  (v.map fun v => (f, v)).toList ++ rest

theorem givenBy_cons : givenBy env (f :: fields)
    = (valueOf env f).bind fun v => (givenBy env fields).map (inFront f v) := by
  rw [givenBy, valueOf]
  cases env.field? f with
  | none =>
    cases givenBy env fields with
    | error fault => rfl
    | ok rest => rfl
  | some t =>
    dsimp only
    cases variableValue f t with
    | error fault => rfl
    | ok v =>
      cases givenBy env fields with
      | error fault => rfl
      | ok rest => cases v <;> rfl

/-- Values are given field by field, and one that cannot be read keeps all from being given. -/
theorem givenBy_cons_eq_ok (h : givenBy env (f :: fields) = .ok given) :
    ∃ v rest, valueOf env f = .ok v ∧ givenBy env fields = .ok rest ∧ given = inFront f v rest := by
  rw [givenBy_cons] at h
  cases hv : valueOf env f with
  | error fault =>
    rw [hv] at h
    cases h
  | ok v =>
    cases hrest : givenBy env fields with
    | error fault =>
      rw [hv, hrest] at h
      cases h
    | ok rest =>
      rw [hv, hrest] at h
      exact ⟨v, rest, rfl, rfl, (Except.ok.inj h).symm⟩

/-- Every field but the origins is given as its text. -/
theorem valueOf_text (hf : f ≠ .corsOrigins) :
    valueOf env f = .ok ((env.field? f).map Json.str) := by
  rw [valueOf]
  cases env.field? f with
  | none => rfl
  | some t => exact if_neg hf

/-- A value in front decides over what is given behind it. -/
theorem lookup_inFront : (inFront f v rest).lookup f = v.or (rest.lookup f) := by
  cases v with
  | none => rfl
  | some v => exact List.lookup_cons_self

theorem lookup_inFront_of_ne (h : g ≠ f) : (inFront f v rest).lookup g = rest.lookup g := by
  cases v with
  | none => rfl
  | some v =>
    show List.lookup g ((f, v) :: rest) = _
    rw [List.lookup_cons, beq_false_of_ne h]

/-- **A field that is no list is given as the text of its variable.** -/
theorem lookup_givenBy (hf : f ≠ .corsOrigins) (h : givenBy env fields = .ok given) :
    given.lookup f = if f ∈ fields then (env.field? f).map Json.str else none := by
  induction fields generalizing given with
  | nil =>
    obtain rfl := Except.ok.inj h
    rfl
  | cons g fields ih =>
    obtain ⟨v, rest, hv, hrest, rfl⟩ := givenBy_cons_eq_ok h
    by_cases hg : f = g
    · -- the value is in front, and without one there is none behind either
      subst hg
      rw [valueOf_text hf] at hv
      obtain rfl := Except.ok.inj hv
      rw [lookup_inFront, ih hrest, if_pos List.mem_cons_self]
      cases env.field? f with
      | none => simp
      | some t => rfl
    · rw [lookup_inFront_of_ne hg, ih hrest]
      simp only [List.mem_cons, hg, false_or]

/-! ## Values that differ in one field -/

/-- The same values are given for every field but one. -/
def AgreeBut (f : Field) (given given' : Given) : Prop := ∀ g ≠ f, given.lookup g = given'.lookup g

/-- Environments that differ in one text give values that differ in it, or the same fault. -/
theorem givenBy_agree (hf : f ≠ .corsOrigins) (h : ∀ g ≠ f, env.field? g = env'.field? g)
    (fields : List Field) :
    (∃ fault, givenBy env fields = .error fault ∧ givenBy env' fields = .error fault)
      ∨ ∃ given given', givenBy env fields = .ok given ∧ givenBy env' fields = .ok given'
        ∧ AgreeBut f given given' := by
  induction fields with
  | nil => exact .inr ⟨[], [], rfl, rfl, fun _ _ => rfl⟩
  | cons g fields ih =>
    rw [givenBy_cons, givenBy_cons]
    by_cases hg : g = f
    · -- the field in question: a text never fails, and it is in front of all others
      subst hg
      rw [valueOf_text hf, valueOf_text hf]
      rcases ih with ⟨fault, hfault, hfault'⟩ | ⟨given, given', hgiven, hgiven', hagree⟩
      · exact .inl ⟨fault, by rw [hfault]; rfl, by rw [hfault']; rfl⟩
      · refine .inr ⟨_, _, by rw [hgiven]; rfl, by rw [hgiven']; rfl, fun k hk => ?_⟩
        rw [lookup_inFront_of_ne hk, lookup_inFront_of_ne hk, hagree k hk]
    · have hvalue : valueOf env' g = valueOf env g := by
        rw [valueOf, valueOf, h g hg]
      rw [hvalue]
      cases valueOf env g with
      | error fault => exact .inl ⟨fault, rfl, rfl⟩
      | ok v =>
        rcases ih with ⟨fault, hfault, hfault'⟩ | ⟨given, given', hgiven, hgiven', hagree⟩
        · exact .inl ⟨fault, by rw [hfault]; rfl, by rw [hfault']; rfl⟩
        · refine .inr ⟨_, _, by rw [hgiven]; rfl, by rw [hgiven']; rfl, fun k hk => ?_⟩
          by_cases hkg : k = g
          · subst hkg
            rw [lookup_inFront, lookup_inFront, hagree k hk]
          · rw [lookup_inFront_of_ne hkg, lookup_inFront_of_ne hkg, hagree k hk]

/-! ## The level -/

/-- Settings with another level. -/
def withLevel (level : Text) (s : Settings) : Settings := { s with logLevel := level }

theorem fieldOr_congr {α : Type} {parse : Json → Checked α} {otherwise : α}
    (h : given.lookup f = given'.lookup f) :
    fieldOr f parse otherwise given = fieldOr f parse otherwise given' := by
  rw [fieldOr, fieldOr, h]

/-- Any text passes as a level. -/
theorem fieldOr_level {level? : Option Text} (h : given.lookup .logLevel = level?.map Json.str) :
    fieldOr .logLevel Validation.text defaults.logLevel given
      = .ok (level?.getD defaults.logLevel) := by
  rw [fieldOr, h]
  cases level? with
  | none => rfl
  | some t => rfl

/-- **The check of the level passes, and no other check depends on it.** -/
theorem check_level {level? level'? : Option Text} {unknown : List Text}
    (h : given.lookup .logLevel = level?.map Json.str)
    (h' : given'.lookup .logLevel = level'?.map Json.str)
    (hagree : AgreeBut .logLevel given given') :
    check given' unknown
      = (check given unknown).map (withLevel (level'?.getD defaults.logLevel)) := by
  unfold check
  rw [fieldOr_congr (hagree .runMethod (by decide)),
    fieldOr_congr (hagree .routeMethod (by decide)),
    fieldOr_congr (hagree .hashMaxLength (by decide)),
    fieldOr_congr (hagree .corsOrigins (by decide)), fieldOr_congr (hagree .logFormat (by decide)),
    fieldOr_level h, fieldOr_level h']
  split
  · rfl
  · -- the errors are those of the other fields
    dsimp only
    generalize fieldOr .runMethod checkMethod defaults.runMethod given' = run
    generalize fieldOr .routeMethod checkMethod defaults.routeMethod given' = route
    generalize fieldOr .hashMaxLength Validation.integer defaults.hashMaxLength given' = length
    generalize fieldOr .corsOrigins Validation.texts defaults.corsOrigins given' = origins
    generalize fieldOr .logFormat Validation.text defaults.logFormat given' = format
    generalize unknown.map _ = extra
    cases run <;> cases route <;> cases length <;> cases origins <;> cases format <;>
      cases extra <;> rfl

/-- Without arguments, settings are built from what the environment gives. -/
theorem build_of_given (h : givenBy env Field.all = .ok given) :
    build [] env = (check given []).mapError Fault.invalid := by
  have hall : known [] ++ given = given := rfl
  have hunknown : unknown [] = [] := rfl
  unfold build
  rw [h]
  dsimp only
  rw [hall, hunknown]
  cases check given [] with
  | error errors => rfl
  | ok s => rfl

/-- **The level is taken from the environment as it is**: with another level, the same environment
gives the same settings but for the level, or the same fault. -/
theorem build_level (h : ∀ f ≠ .logLevel, env.field? f = env'.field? f) :
    build [] env'
      = (build [] env).map (withLevel ((env'.field? .logLevel).getD defaults.logLevel)) := by
  have hlevel {env : Environment} {given : Given} (hgiven : givenBy env Field.all = .ok given) :
      given.lookup .logLevel = (env.field? .logLevel).map Json.str := by
    rw [lookup_givenBy (by decide) hgiven, if_pos (by decide)]
  rcases givenBy_agree (by decide) h Field.all with
    ⟨fault, hfault, hfault'⟩ | ⟨given, given', hgiven, hgiven', hagree⟩
  · rw [build, build, hfault, hfault']
    rfl
  · rw [build_of_given hgiven, build_of_given hgiven',
      check_level (hlevel hgiven) (hlevel hgiven') hagree]
    cases check given [] with
    | error errors => rfl
    | ok s => rfl

/-- **The level that is built** is that of the environment or the default one; it is not checked. -/
theorem logLevel_of_build {s : Settings} (h : build [] env = .ok s) :
    s.logLevel = (env.field? .logLevel).getD defaults.logLevel := by
  have hbuild : build [] env = (build [] env).map _ := build_level fun _ _ => rfl
  rw [h] at hbuild
  exact congrArg logLevel (Except.ok.inj hbuild)

end Deeplink.Settings

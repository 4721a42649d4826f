import Deeplink.Proofs.Fragment.Grammar
import Deeplink.Settings

/-!
# The methods in settings

The settings name the methods of the two standard families. Each of them is checked by itself, and
the check is about colons only. The two methods are settings (specification, 10.1).

- `Settings.IsMethod`: two parts around one colon, neither of them empty.
- `Settings.build_methods`: settings name methods of this shape.
- `Settings.named`, `Settings.build_named`: two variables name any two methods of this shape.
- `Settings.methods_accepted_iff`: nothing else is asked of the two methods.
-/

namespace Deeplink.Settings

variable {t run route : Text} {given : Given} {s : Settings}

/-! ## Shapes -/

/-- Two parts around one colon, neither of them empty. -/
def IsMethod (t : Text) : Prop :=
  ∃ namespaceName qualifier, t = namespaceName ++ .char ':' :: qualifier
    ∧ namespaceName ≠ [] ∧ qualifier ≠ []
    ∧ .char ':' ∉ namespaceName ∧ .char ':' ∉ qualifier

/-- What is checked is the shape that a method has. -/
theorem hasMethodShape_iff : hasMethodShape t = true ↔ IsMethod t := by
  constructor
  · intro h
    unfold hasMethodShape at h
    split at h
    next namespaceName qualifier hpieces =>
      rw [Bool.and_eq_true, Bool.not_eq_true', Bool.not_eq_true', List.isEmpty_eq_false_iff,
        List.isEmpty_eq_false_iff] at h
      have hmark : ∀ piece ∈ [namespaceName, qualifier], .char ':' ∉ piece := by
        intro piece hpiece
        rw [← hpieces] at hpiece
        exact Text.not_mem_of_mem_pieces hpiece
      refine ⟨namespaceName, qualifier, ?_, h.1, h.2, hmark _ (by simp), hmark _ (by simp)⟩
      rw [← Text.join_pieces ':' t, hpieces]
      simp [Text.join, List.intercalate]
    next => cases h
  · rintro ⟨namespaceName, qualifier, rfl, hnamespace, hqualifier, hmark, hmark'⟩
    have hpieces : Text.pieces ':' (namespaceName ++ .char ':' :: qualifier)
        = [namespaceName, qualifier] := by
      rw [Text.pieces, List.splitOn_append_cons_self_of_not_mem hmark,
        List.splitOn_eq_singleton hmark']
    rw [hasMethodShape, hpieces]
    simp [hnamespace, hqualifier]

/-! ## Checks -/

/-- A text of the shape of a method is accepted as it is. -/
theorem checkMethod_str (h : IsMethod t) : checkMethod (.str t) = .ok t := by
  unfold checkMethod
  show (if hasMethodShape t then _ else _) = _
  rw [if_pos (hasMethodShape_iff.mpr h)]
  rfl

/-- Nothing but a text of the shape of a method is accepted. -/
theorem isMethod_of_checkMethod {v : Json} (h : checkMethod v = .ok t) : IsMethod t := by
  cases v with
  | str t' =>
    change (if hasMethodShape t' then _ else _) = _ at h
    split at h
    next hshape =>
      obtain rfl := Except.ok.inj h
      exact hasMethodShape_iff.mp hshape
    next => cases h
  | _ => cases h

/-- A method that is given has been checked, and the default is one. -/
theorem isMethod_of_fieldOr {f : Field} {otherwise : Text} (hdefault : IsMethod otherwise)
    (h : fieldOr f checkMethod otherwise given = .ok t) : IsMethod t := by
  unfold fieldOr at h
  split at h
  next => exact Except.ok.inj h ▸ hdefault
  next v _ =>
    cases hcheck : checkMethod v with
    | error es =>
      rw [hcheck] at h
      cases h
    | ok t' =>
      rw [hcheck] at h
      obtain rfl := Except.ok.inj h
      exact isMethod_of_checkMethod hcheck

theorem fieldOr_method {f : Field} {otherwise : Text} (hgiven : given.lookup f = some (.str t))
    (h : IsMethod t) : fieldOr f checkMethod otherwise given = .ok t := by
  unfold fieldOr
  rw [hgiven]
  show Validation.inField f.name (checkMethod (.str t)) = _
  rw [checkMethod_str h]
  rfl

/-- Settings that pass all checks have two methods. -/
theorem check_methods {unknown : List Text} (h : check given unknown = .ok s) :
    IsMethod s.runMethod ∧ IsMethod s.routeMethod := by
  unfold check at h
  split at h
  · cases h
  · dsimp only at h
    split at h
    next hrun hroute _ _ _ _ _ =>
      obtain rfl := Except.ok.inj h
      exact ⟨isMethod_of_fieldOr (hasMethodShape_iff.mp (by decide)) hrun,
        isMethod_of_fieldOr (hasMethodShape_iff.mp (by decide)) hroute⟩
    next => cases h

/-! ## Settings -/

/-- **Settings name methods of the right shape**, wherever they come from. -/
theorem build_methods {arguments : List (Text × Json)} {env : Environment}
    (h : build arguments env = .ok s) : IsMethod s.runMethod ∧ IsMethod s.routeMethod := by
  unfold build at h
  split at h
  · cases h
  · split at h
    next hcheck =>
      obtain rfl := Except.ok.inj h
      exact check_methods hcheck
    next => cases h

/-- The variables that name two methods. -/
def named (run route : Text) : Environment :=
  [("HASH_COMMANDS_RUN_METHOD", run), ("HASH_COMMANDS_ROUTE_METHOD", route)]

/-- An environment with two variables gives two methods and nothing else. -/
theorem givenBy_named (run route : Text) : givenBy (named run route) Field.all
    = .ok [(.runMethod, .str run), (.routeMethod, .str route)] := by
  rfl

/-- **Any two methods of the right shape are accepted**, whatever else is in them. -/
theorem build_named (hrun : IsMethod run) (hroute : IsMethod route) :
    build [] (named run route)
      = .ok { defaults with runMethod := run, routeMethod := route } := by
  have hrunGiven : fieldOr .runMethod checkMethod defaults.runMethod
      [(.runMethod, .str run), (.routeMethod, .str route)] = .ok run := fieldOr_method rfl hrun
  have hrouteGiven : fieldOr .routeMethod checkMethod defaults.routeMethod
      [(.runMethod, .str run), (.routeMethod, .str route)] = .ok route := fieldOr_method rfl hroute
  have hcheck : check (known [] ++ [(.runMethod, .str run), (.routeMethod, .str route)])
        (unknown [])
      = .ok { defaults with runMethod := run, routeMethod := route } := by
    show check [(.runMethod, .str run), (.routeMethod, .str route)] [] = _
    rw [check]
    simp only [hrunGiven, hrouteGiven]
    rfl
  rw [build, givenBy_named]
  dsimp only
  rw [hcheck]

theorem methods_accepted_iff : (∃ arguments env s, build arguments env = .ok s
      ∧ s.runMethod = run ∧ s.routeMethod = route) ↔ IsMethod run ∧ IsMethod route := by
  constructor
  · rintro ⟨arguments, env, s, h, rfl, rfl⟩
    exact build_methods h
  · rintro ⟨hrun, hroute⟩
    exact ⟨[], named run route, _, build_named hrun hroute, rfl, rfl⟩

end Deeplink.Settings

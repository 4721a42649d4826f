import Deeplink.Proofs.Fragment.Recorded

/-!
# Independent tokens

The tokens of a fragment have nothing to do with each other: none of them changes what another one
says, or what is reported about it. Each token is processed independently (specification, 4.1, step
3).

- `Fragment.linked`: the fragment of two texts with an ampersand between them.
- `Fragment.parse_linked`: it is parsed like the first one and then like the second one.
- `Fragment.ofTexts`, `Fragment.commands_ofTexts`: a fragment of any number of texts.
- `Fragment.Gives`: the commands and the reports of a fragment, whatever the sink does.
- `Fragment.tokens_independent`: a token may be replaced, inserted or left out, and nothing else
  changes.
-/

namespace Deeplink.Fragment

variable {σ : Type}

/-- The fragment of a text: a number sign stands before it. -/
def single (x : Text) : Text := .char '#' :: x

/-- The fragment of two texts with an ampersand between them. -/
def linked (x y : Text) : Text := .char '#' :: (x ++ .char '&' :: y)

/-! ## Two texts -/

/-- The tokens of both texts, in order. Only the first number sign is left out, so that one in
front of the second text stays where it is. -/
theorem tokens_linked (x y : Text) :
    tokens (linked x y) = tokens (single x) ++ tokens (single y) :=
  List.splitOn_append_cons_self x y

/-- Two tokens that are linked give the commands of the one and then those of the other. -/
theorem commands_linked (methods : List Text) (x y : Text) :
    commands methods (some (linked x y))
      = commands methods (some (single x)) ++ commands methods (some (single y)) := by
  simp only [commands, Option.getD_some, tokens_linked, List.filterMap_append]

/-- Two tokens that are linked are reported one after the other. -/
theorem diagnostics_linked (methods : List Text) (x y : Text) :
    diagnostics methods (some (linked x y))
      = diagnostics methods (some (single x)) ++ diagnostics methods (some (single y)) := by
  simp only [diagnostics, Option.getD_some, tokens_linked, List.filterMap_append]

/-- **Two texts are parsed one after the other**, and so are the reports about them made, whatever
the sink does. -/
theorem parse_linked (methods : List Text) (sink : Option (Sink σ)) (x y : Text) :
    parse methods sink (some (linked x y)) = do
      let front ← parse methods sink (some (single x))
      let back ← parse methods sink (some (single y))
      return front ++ back := by
  simp only [parse_eq, diagnostics_linked, commands_linked, reportAll_append, Act.bind_assoc,
    Act.pure_bind]

/-! ## Any number of texts -/

/-- The fragment of texts with ampersands between them. -/
def ofTexts (ts : List Text) : Text := single (Text.join [.char '&'] ts)

theorem ofTexts_cons_cons (t u : Text) (ts : List Text) :
    ofTexts (t :: u :: ts) = linked t (Text.join [.char '&'] (u :: ts)) := by
  rw [ofTexts, Text.join, List.intercalate_cons_cons, List.append_assoc]
  rfl

/-- What each token has of its own, the fragment has of its texts, one after the other. A fragment
without any text still has one token, an empty one. -/
theorem filterMap_ofTexts {β : Type} {f : Text → Option β} (hf : f [] = none) (ts : List Text) :
    (tokens (ofTexts ts)).filterMap f
      = ts.flatMap fun t => (tokens (single t)).filterMap f := by
  induction ts with
  | nil =>
    show [[]].filterMap f = []
    rw [List.filterMap_cons, hf, List.filterMap_nil]
  | cons t ts ih =>
    cases ts with
    | nil => rw [ofTexts, Text.join, List.intercalate_singleton, List.flatMap_singleton]
    | cons u ts =>
      rw [ofTexts_cons_cons, tokens_linked, List.filterMap_append, List.flatMap_cons]
      exact congrArg (_ ++ ·) ih

/-- The commands of any number of tokens are those of each of them, one after the other. -/
theorem commands_ofTexts (methods : List Text) (ts : List Text) :
    commands methods (some (ofTexts ts))
      = ts.flatMap fun t => commands methods (some (single t)) :=
  filterMap_ofTexts rfl ts

theorem diagnostics_ofTexts (methods : List Text) (ts : List Text) :
    diagnostics methods (some (ofTexts ts))
      = ts.flatMap fun t => diagnostics methods (some (single t)) :=
  filterMap_ofTexts rfl ts

/-! ## Independence -/

/-- The commands of a fragment, and what is reported about it. A sink that is not cancelled is told
exactly that, and without a sink exactly that is logged. -/
structure Gives (methods : List Text) (raw : Text) (cs : List Command) (ds : List Diagnostic) :
    Prop where
  told : ∀ {σ : Type} (tell : Sink σ), IsOrdinary (some tell) → ∀ told s, ∃ s' trace,
    parse methods (some tell.recorded) (some raw) (told, s) = ⟨.ok cs, (told ++ ds, s'), trace⟩
  logged : ∀ {σ : Type} (s : σ),
    parse methods none (some raw) s = ⟨.ok cs, s, ds.map fun d => .notice d.notice⟩

/-- What a fragment gives does not depend on what a sink is told about it. -/
theorem gives (methods : List Text) (raw : Text) :
    Gives methods raw (commands methods (some raw)) (diagnostics methods (some raw)) where
  told tell htell told s := by
    rw [parse_recorded htell, recording, parse_of_ordinary htell]
    exact ⟨_, _, rfl⟩
  logged s := parse_logged methods (some raw) s

/-- The tokens of a fragment have nothing to do with each other. -/
structure Independent (methods : List Text) : Prop where
  /-- Two texts are parsed one after the other: the commands, the reports, whatever the sink does
  with them, and what is logged. -/
  linked : ∀ {σ : Type} (sink : Option (Sink σ)) (x y : Text),
    parse methods sink (some (linked x y)) = do
      let front ← parse methods sink (some (single x))
      let back ← parse methods sink (some (single y))
      return front ++ back
  /-- A token between others has its own commands and its own reports. Those before it and those
  behind it are the same without it, and with any other token in its place. -/
  between : ∀ before after, ∃ front back told told',
    Gives methods (ofTexts (before ++ after)) (front ++ back) (told ++ told')
      ∧ ∀ t, ∃ cs ds, Gives methods (single t) cs ds
        ∧ Gives methods (ofTexts (before ++ t :: after)) (front ++ cs ++ back) (told ++ ds ++ told')

/-- **The tokens of a fragment are independent of each other.** -/
theorem tokens_independent (methods : List Text) : Independent methods where
  linked := parse_linked methods
  between before after := by
    refine ⟨commands methods (some (ofTexts before)), commands methods (some (ofTexts after)),
      diagnostics methods (some (ofTexts before)), diagnostics methods (some (ofTexts after)),
      ?_, fun t => ⟨_, _, gives methods (single t), ?_⟩⟩
    · have h := gives methods (ofTexts (before ++ after))
      simp only [commands_ofTexts, diagnostics_ofTexts, List.flatMap_append] at h ⊢
      exact h
    · have h := gives methods (ofTexts (before ++ t :: after))
      simp only [commands_ofTexts, diagnostics_ofTexts, List.flatMap_append, List.flatMap_cons,
        ← List.append_assoc] at h ⊢
      exact h

end Deeplink.Fragment

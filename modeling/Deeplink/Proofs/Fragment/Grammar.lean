import Deeplink.Proofs.Fragment.RoundTrip

/-!
# The grammar of fragments

What a fragment says, without a word about how it is read. The grammar is the wire grammar of the
specification (6), stated apart from the steps of the parser (4.1).

- `Token.Spells`, `Token.command`: a token and its text, and the command it stands for.
- `Fragment.Splits`: the texts between the ampersands of a fragment.
- `Fragment.Reads`: one command for each text that spells a token with a known method, and nothing
  for any other text.
- `Fragment.Says`: the texts of a fragment, read from left to right.
- `Token.ofText?_eq_some_iff`, `Fragment.splits_iff`, `Fragment.reads_iff`: a text spells at most
  one token, a fragment is split in one way, and its texts are read in one way.
- `Fragment.SameFront.command?_eq`: a payload does not decide which command there is.
- `Fragment.returned_of_mem`: what holds of every command.
- `Fragment.parse_exact`: a fragment is parsed to what it says.
-/

namespace Deeplink

/-! ## Pieces -/

namespace Text

/-- No mark is in a piece between marks. -/
theorem not_mem_of_mem_pieces {mark : Char} {t piece : Text} (h : piece ∈ pieces mark t) :
    .char mark ∉ piece := by
  induction t generalizing piece with
  | nil =>
    rw [pieces, List.splitOn_nil, List.mem_singleton] at h
    rw [h]
    exact List.not_mem_nil
  | cons c t ih =>
    rw [pieces, List.splitOn_cons_eq_if_modifyHead] at h
    split at h
    next hc =>
      rcases List.mem_cons.mp h with rfl | h
      · exact List.not_mem_nil
      · exact ih h
    next hc =>
      -- the first piece has one more code point, which is no mark
      cases hrest : t.splitOn (.char mark) with
      | nil => exact absurd hrest (List.splitOn_ne_nil _ _)
      | cons first rest =>
        rw [hrest, List.modifyHead_cons] at h
        have hfirst : first ∈ pieces mark t := by
          rw [pieces, hrest]
          exact List.mem_cons_self
        rcases List.mem_cons.mp h with rfl | h
        · intro hmem
          rcases List.mem_cons.mp hmem with rfl | hmem
          · exact hc (beq_self_eq_true _)
          · exact ih hfirst hmem
        · refine ih ?_
          rw [pieces, hrest]
          exact List.mem_cons_of_mem first h

/-- Pieces are put together again by marks. -/
theorem join_pieces (mark : Char) (t : Text) : join [.char mark] (pieces mark t) = t :=
  List.intercalate_splitOn _

/-- What is put together by marks has the pieces that have none. -/
theorem pieces_join {mark : Char} {ts : List Text} (h : ∀ t ∈ ts, .char mark ∉ t) (hts : ts ≠ []) :
    pieces mark (join [.char mark] ts) = ts :=
  List.splitOn_intercalate _ h hts

/-- The whole has every piece as it is. -/
theorem infix_join {between piece : Text} {ts : List Text} (hpiece : piece ∈ ts) :
    piece <:+: join between ts := by
  induction ts with
  | nil => cases hpiece
  | cons first rest ih =>
    cases rest with
    | nil =>
      obtain rfl := List.mem_singleton.mp hpiece
      exact ⟨[], [], by simp [join]⟩
    | cons second rest =>
      rw [join, List.intercalate_cons_cons]
      rcases List.mem_cons.mp hpiece with rfl | hpiece
      · rw [List.append_assoc]
        exact (List.prefix_append piece _).isInfix
      · exact (ih hpiece).trans (List.suffix_append _ _).isInfix

/-- What stands behind a mark, if there is anything. -/
def behind (mark : Char) (rest : Option Text) : Text := (rest.map (.char mark :: ·)).getD []

/-- A text that is cut has no mark in front, and nothing is lost. -/
theorem cut_spec (mark : Char) (t : Text) : .char mark ∉ (cut mark t).1
    ∧ t = (cut mark t).1 ++ behind mark (cut mark t).2 := by
  induction t with
  | nil => exact ⟨List.not_mem_nil, rfl⟩
  | cons c t ih =>
    unfold cut
    split
    next hc =>
      rw [hc]
      exact ⟨List.not_mem_nil, rfl⟩
    next hc =>
      obtain ⟨hfront, hwhole⟩ := ih
      refine ⟨?_, congrArg (c :: ·) hwhole⟩
      intro hmem
      rcases List.mem_cons.mp hmem with h | hmem
      · exact hc h.symm
      · exact hfront hmem

/-- A text without a mark is not cut. -/
theorem cut_of_not_mem {mark : Char} {t : Text} (h : .char mark ∉ t) : cut mark t = (t, none) := by
  induction t with
  | nil => rfl
  | cons c t ih =>
    have hc : c ≠ .char mark := fun hc => h (hc ▸ List.mem_cons_self)
    rw [cut, if_neg hc, ih fun hmem => h (List.mem_cons_of_mem c hmem)]

/-- What stands behind a mark does not change what stands before the first one. -/
theorem cut_append_behind (mark : Char) (t : Text) (rest : Option Text) :
    (cut mark (t ++ behind mark rest)).1 = (cut mark t).1 := by
  induction t with
  | nil =>
    cases rest with
    | none => rfl
    | some rest =>
      show (cut mark (.char mark :: rest)).1 = []
      rw [cut, if_pos rfl]
  | cons c t ih =>
    rw [List.cons_append, cut, cut]
    split
    next => rfl
    next => exact congrArg (c :: ·) ih

end Text

/-! ## Tokens -/

/-- Empty arguments are read as missing ones. -/
theorem Arguments.orNone_filter (raw : Option Text) : orNone (raw.filter (· ≠ [])) = orNone raw :=
  match raw with
  | none => rfl
  | some [] => rfl
  | some (_ :: _) => rfl

namespace Token

/-- The names of a token, with a colon between them. -/
def front (token : Token) : Text :=
  token.namespaceName ++ .char ':' :: (token.qualifier ++ .char ':' :: token.name)

/-- A name has neither a colon nor a question mark. -/
def IsName (t : Text) : Prop := .char ':' ∉ t ∧ .char '?' ∉ t

/-- The text of a token: three names with a colon between them, and behind a question mark, if there
is one, any text at all. -/
structure Spells (token : Token) (t : Text) : Prop where
  namespaceName : IsName token.namespaceName
  qualifier : IsName token.qualifier
  name : IsName token.name
  text : t = token.front ++ Text.behind '?' token.arguments

/-- The command that a token stands for. Empty arguments are missing ones. -/
def command (token : Token) : Command :=
  ⟨token.method, token.name, Arguments.orNone (token.arguments.filter (· ≠ []))⟩

variable {token : Token} {t : Text}

theorem front_eq (token : Token) :
    token.front = Text.join [.char ':'] [token.namespaceName, token.qualifier, token.name] := by
  simp [front, Text.join, List.intercalate]

theorem front_eq_method (token : Token) :
    token.front = token.method ++ .char ':' :: token.name := by
  simp [front, method]

theorem Spells.front_infix (h : token.Spells t) : token.front <:+: t := by
  rw [h.text]
  exact (List.prefix_append _ _).isInfix

theorem Spells.not_mem_front (h : token.Spells t) : .char '?' ∉ token.front := by
  simp only [front, List.mem_append, List.mem_cons, not_or]
  exact ⟨h.namespaceName.2, by decide, h.qualifier.2, by decide, h.name.2⟩

theorem Spells.pieces (h : token.Spells t) :
    Text.pieces ':' token.front = [token.namespaceName, token.qualifier, token.name] := by
  rw [front_eq]
  refine Text.pieces_join ?_ (List.cons_ne_nil _ _)
  intro piece hpiece
  simp only [List.mem_cons, List.not_mem_nil, or_false] at hpiece
  rcases hpiece with rfl | rfl | rfl
  · exact h.namespaceName.1
  · exact h.qualifier.1
  · exact h.name.1

theorem Spells.cut (h : token.Spells t) : Text.cut '?' t = (token.front, token.arguments) := by
  rw [h.text]
  cases token.arguments with
  | none =>
    show Text.cut '?' (token.front ++ []) = _
    rw [List.append_nil, Text.cut_of_not_mem h.not_mem_front]
  | some p => exact Text.cut_append h.not_mem_front p

/-- **A text spells the token that it is read as, and no other one.** -/
theorem ofText?_eq_some_iff : ofText? t = some token ↔ token.Spells t := by
  constructor
  · intro h
    obtain ⟨hmark, hwhole⟩ := Text.cut_spec '?' t
    unfold ofText? at h
    generalize hcut : Text.cut '?' t = parts at h hmark hwhole
    obtain ⟨frontText, arguments⟩ := parts
    dsimp only at h hmark hwhole
    split at h
    next namespaceName qualifier name hpieces =>
      obtain rfl := Option.some.inj h
      -- the front is what its three pieces are put together to
      have hjoin := Text.join_pieces ':' frontText
      rw [hpieces] at hjoin
      have hname : ∀ piece ∈ [namespaceName, qualifier, name], IsName piece := by
        intro piece hpiece
        rw [← hpieces] at hpiece
        refine ⟨Text.not_mem_of_mem_pieces hpiece, fun hmem => hmark ?_⟩
        rw [← Text.join_pieces ':' frontText]
        exact (Text.infix_join hpiece).subset hmem
      refine ⟨hname _ (by simp), hname _ (by simp), hname _ (by simp), ?_⟩
      rw [front_eq]
      show t = Text.join [.char ':'] [namespaceName, qualifier, name] ++ _
      rw [hjoin]
      exact hwhole
    next => cases h
  · intro h
    rw [ofText?, h.cut]
    dsimp only
    rw [h.pieces]

/-- A text spells at most one token. -/
theorem Spells.unique {token' : Token} (h : token.Spells t) (h' : token'.Spells t) :
    token = token' :=
  Option.some.inj ((ofText?_eq_some_iff.mpr h).symm.trans (ofText?_eq_some_iff.mpr h'))

end Token

/-! ## Fragments -/

namespace Fragment

/-- A fragment is its body, and it may have one number sign before it. -/
def IsBody (h body : Text) : Prop :=
  h = .char '#' :: body ∨ h = body ∧ body.head? ≠ some (.char '#')

/-- The texts between the ampersands of a fragment. -/
def Splits (h : Text) (ts : List Text) : Prop :=
  ∃ body, IsBody h body ∧ ts ≠ [] ∧ (∀ t ∈ ts, .char '&' ∉ t) ∧ body = Text.join [.char '&'] ts

/-- What texts are read as: those that spell a token with a known method as its command, and the
other ones as nothing. -/
inductive Reads (methods : List Text) : List Text → List Command → Prop
  | nil : Reads methods [] []
  | command {token : Token} {t : Text} {ts : List Text} {cs : List Command} (h : token.Spells t)
      (hknown : token.method ∈ methods) (hrest : Reads methods ts cs) :
      Reads methods (t :: ts) (token.command :: cs)
  | other {t : Text} {ts : List Text} {cs : List Command}
      (h : ∀ token : Token, token.Spells t → token.method ∉ methods) (hrest : Reads methods ts cs) :
      Reads methods (t :: ts) cs

/-- What a fragment says: the texts between its ampersands are read from left to right. -/
def Says (methods : List Text) (h : Text) (cs : List Command) : Prop :=
  ∃ ts, Splits h ts ∧ Reads methods ts cs

variable {methods : List Text} {h t : Text} {ts : List Text} {cs : List Command}

/-! ### Bodies and texts -/

theorem isBody_iff {body : Text} : IsBody h body ↔ body = (Text.skip '#' h).2 := by
  cases h with
  | nil =>
    constructor
    · rintro (habsurd | ⟨rfl, -⟩)
      · cases habsurd
      · rfl
    · rintro rfl
      exact .inr ⟨rfl, nofun⟩
  | cons c rest =>
    rw [Text.skip]
    split
    next hc =>
      rw [hc]
      constructor
      · rintro (hbody | ⟨rfl, hhead⟩)
        · exact (List.cons.inj hbody).2.symm
        · exact absurd rfl hhead
      · rintro rfl
        exact .inl rfl
    next hc =>
      constructor
      · rintro (hbody | ⟨rfl, -⟩)
        · exact absurd (List.cons.inj hbody).1 hc
        · rfl
      · rintro rfl
        exact .inr ⟨rfl, fun hhead => hc (Option.some.inj hhead)⟩

/-- **A fragment is split in one way**, and that is how it is cut. -/
theorem splits_iff : Splits h ts ↔ ts = tokens h := by
  constructor
  · rintro ⟨body, hbody, hne, hmark, rfl⟩
    rw [tokens, ← isBody_iff.mp hbody, Text.pieces_join hmark hne]
  · rintro rfl
    refine ⟨_, isBody_iff.mpr rfl, List.splitOn_ne_nil _ _, ?_, (Text.join_pieces '&' _).symm⟩
    exact fun t ht => Text.not_mem_of_mem_pieces ht

/-! ### Commands -/

theorem known?_eq_some_iff {token : Token} :
    known? methods t = some token ↔ token.Spells t ∧ token.method ∈ methods := by
  rw [known?, Option.filter_eq_some_iff, Token.ofText?_eq_some_iff, decide_eq_true_iff]

theorem known?_eq_none_iff :
    known? methods t = none ↔ ∀ token : Token, token.Spells t → token.method ∉ methods := by
  rw [Option.eq_none_iff_forall_ne_some]
  constructor
  · intro h token hspells hmethod
    exact h token (known?_eq_some_iff.mpr ⟨hspells, hmethod⟩)
  · intro h token htoken
    obtain ⟨hspells, hmethod⟩ := known?_eq_some_iff.mp htoken
    exact h token hspells hmethod

theorem command?_eq : command? methods t = (known? methods t).map Token.command := by
  unfold command? Token.command
  simp only [Arguments.orNone_filter]

/-- **Texts are read in one way**, and that gives the commands. -/
theorem reads_iff : Reads methods ts cs ↔ cs = ts.filterMap (command? methods) := by
  constructor
  · intro hreads
    induction hreads with
    | nil => rfl
    | command h hknown hrest ih =>
      rw [List.filterMap_cons, command?_eq, known?_eq_some_iff.mpr ⟨h, hknown⟩, ih]
      rfl
    | other h hrest ih =>
      rw [List.filterMap_cons, command?_eq, known?_eq_none_iff.mpr h, ih]
      rfl
  · rintro rfl
    induction ts with
    | nil => exact .nil
    | cons t ts ih =>
      rw [List.filterMap_cons, command?_eq]
      cases hknown : known? methods t with
      | none => exact .other (known?_eq_none_iff.mp hknown) ih
      | some token =>
        obtain ⟨hspells, hmethod⟩ := known?_eq_some_iff.mp hknown
        exact .command hspells hmethod ih

/-- **A fragment says one thing**, and those are its commands. -/
theorem says_iff : Says methods h cs ↔ cs = commands methods (some h) := by
  constructor
  · rintro ⟨ts, hsplits, hreads⟩
    rw [reads_iff.mp hreads, splits_iff.mp hsplits]
    rfl
  · rintro rfl
    exact ⟨tokens h, splits_iff.mpr rfl, reads_iff.mpr rfl⟩

/-! ### Payloads -/

/-- The texts differ at most in what stands behind a question mark. -/
def SameFront (t t' : Text) : Prop :=
  ∃ front rest rest', t = front ++ Text.behind '?' rest ∧ t' = front ++ Text.behind '?' rest'

/-- Whether there is a command, and its method and name, do not depend on the payload. -/
theorem SameFront.command?_eq {t' : Text} (hfront : SameFront t t') :
    (command? methods t).map Command.hashKey
      = (command? methods t').map Command.hashKey := by
  obtain ⟨front, rest, rest', rfl, rfl⟩ := hfront
  have hcut := (Text.cut_append_behind '?' front rest).trans
    (Text.cut_append_behind '?' front rest').symm
  simp only [command?, known?, Token.ofText?, hcut]
  split
  next namespaceName qualifier name _ =>
    by_cases hmethod : namespaceName ++ .char ':' :: qualifier ∈ methods <;>
      simp [Token.method, Option.filter, hmethod, Command.hashKey]
  next => rfl

theorem hashKeys_eq {ts' : List Text} (hts : List.Forall₂ SameFront ts ts') :
    (ts.filterMap (command? methods)).map Command.hashKey
      = (ts'.filterMap (command? methods)).map Command.hashKey := by
  rw [List.map_filterMap, List.map_filterMap]
  induction hts with
  | nil => rfl
  | cons hfront _ ih => rw [List.filterMap_cons, List.filterMap_cons, hfront.command?_eq, ih]

/-! ### What is returned -/

/-- What holds of a command that a fragment says. -/
structure Returned (methods : List Text) (h : Text) (c : Command) : Prop where
  known : c.method ∈ methods
  oneColon : c.method.count (.char ':') = 1
  name : .char ':' ∉ c.name ∧ .char '?' ∉ c.name ∧ .char '&' ∉ c.name
  /-- The method and the name stand in the fragment, code point for code point. -/
  copied : c.method ++ .char ':' :: c.name <:+: h

theorem infix_of_mem_tokens (ht : t ∈ tokens h) : t <:+: h := by
  have hbody : t <:+: (Text.skip '#' h).2 := by
    rw [← Text.join_pieces '&' (Text.skip '#' h).2]
    exact Text.infix_join ht
  refine hbody.trans ?_
  rcases isBody_iff.mpr rfl with hh | ⟨hh, -⟩
  · exact ⟨[.char '#'], [], by rw [List.append_nil]; exact hh.symm⟩
  · exact hh ▸ List.infix_refl _

/-- Every command comes from a token. -/
theorem exists_token_of_mem {c : Command} (hc : c ∈ commands methods (some h)) :
    ∃ t ∈ tokens h, ∃ token : Token, token.Spells t ∧ token.method ∈ methods
      ∧ c = token.command := by
  obtain ⟨t, ht, hcommand⟩ := List.mem_filterMap.mp hc
  rw [command?_eq] at hcommand
  obtain ⟨token, htoken, rfl⟩ := Option.map_eq_some_iff.mp hcommand
  obtain ⟨hspells, hmethod⟩ := known?_eq_some_iff.mp htoken
  exact ⟨t, ht, token, hspells, hmethod, rfl⟩

/-- The marks that end a token and its front are neither in its method nor in its name. -/
theorem marks_not_mem_front {token : Token} (ht : t ∈ tokens h) (hspells : token.Spells t) :
    .char '&' ∉ token.front ∧ .char '?' ∉ token.front :=
  ⟨fun hmem => Text.not_mem_of_mem_pieces ht (hspells.front_infix.subset hmem),
    hspells.not_mem_front⟩

theorem returned_of_mem {c : Command} (hc : c ∈ commands methods (some h)) :
    Returned methods h c := by
  obtain ⟨t, ht, token, hspells, hmethod, rfl⟩ := exists_token_of_mem hc
  have hampersand : .char '&' ∉ token.name := by
    intro hmem
    refine (marks_not_mem_front ht hspells).1 ?_
    rw [token.front_eq_method]
    exact List.mem_append_right _ (List.mem_cons_of_mem _ hmem)
  refine ⟨hmethod, ?_, ⟨hspells.name.1, hspells.name.2, hampersand⟩, ?_⟩
  · show token.method.count _ = 1
    rw [Token.method, List.count_append, List.count_cons_self,
      List.count_eq_zero.mpr hspells.namespaceName.1, List.count_eq_zero.mpr hspells.qualifier.1]
  · show token.method ++ .char ':' :: token.name <:+: h
    rw [← token.front_eq_method]
    exact hspells.front_infix.trans (infix_of_mem_tokens ht)

/-! ### The parser -/

/-- A fragment is parsed to what it says. -/
structure ParsedExactly (methods : List Text) (h : Text) : Prop where
  /-- It says one thing. -/
  said : ∃! cs, Says methods h cs
  /-- Without a sink, that is what it is parsed to, and parsing does not fail. -/
  parsed : ∀ {σ : Type} (s : σ) (cs : List Command),
    (parse methods none (some h) s).result = .ok cs ↔ Says methods h cs
  /-- With a sink, it is parsed to nothing else. -/
  watched : ∀ {σ : Type} (sink : Sink σ) (s : σ) (cs : List Command),
    (parse methods (some sink) (some h) s).result = .ok cs → Says methods h cs
  /-- With a sink that has no failures but ordinary ones, parsing does not fail. -/
  ordinary : ∀ {σ : Type} (sink : Sink σ) (s : σ),
    (∀ d s e, (sink d s).result = .error e → e.isOrdinary = true) →
      ∃ cs, (parse methods (some sink) (some h) s).result = .ok cs
  /-- There is one way to split it, -/
  split : ∀ ts ts', Splits h ts → Splits h ts' → ts = ts'
  /-- and each of its texts spells at most one token. -/
  spelled : ∀ (t : Text) (token token' : Token),
    token.Spells t → token'.Spells t → token = token'
  returned : ∀ cs, Says methods h cs → ∀ c ∈ cs, Returned methods h c
  /-- Nothing behind a question mark changes which commands there are. -/
  payload : ∀ h' ts ts' cs cs', Splits h ts → Splits h' ts' → List.Forall₂ SameFront ts ts' →
    Says methods h cs → Says methods h' cs' → cs.map Command.hashKey = cs'.map Command.hashKey

/-- **A fragment is parsed to what it says.** -/
theorem parse_exact (methods : List Text) (h : Text) : ParsedExactly methods h where
  said := ⟨commands methods (some h), says_iff.mpr rfl, fun cs hsays => says_iff.mp hsays⟩
  parsed s cs := by
    rw [parse_logged, says_iff]
    exact ⟨fun hok => (Except.ok.inj hok).symm, fun hcs => congrArg Except.ok hcs.symm⟩
  watched sink s cs hok := says_iff.mpr (eq_commands_of_parse hok)
  ordinary sink s hsink := by
    refine ⟨commands methods (some h), parse_of_ordinary ?_ (some h) s⟩
    rintro tell htell
    obtain rfl := Option.some.inj htell
    exact hsink
  split ts ts' hts hts' := (splits_iff.mp hts).trans (splits_iff.mp hts').symm
  spelled t token token' htoken htoken' := htoken.unique htoken'
  returned cs hsays c hc := by
    obtain rfl := says_iff.mp hsays
    exact returned_of_mem hc
  payload h' ts ts' cs cs' hts hts' hfront hsays hsays' := by
    obtain rfl := splits_iff.mp hts
    obtain rfl := splits_iff.mp hts'
    rw [says_iff.mp hsays, says_iff.mp hsays']
    exact hashKeys_eq hfront

/-- One number sign is left out, the second one is part of a name. Marks behind a question mark are
no marks of a token, and a name may be empty. -/
example : (commands ["e:run"] (some "##e:run:a&e:run:b?:?:&e:run:c:d&e:run:")).map Command.hashKey
    = [(("e:run" : Text), ("b" : Text)), (("e:run" : Text), ("" : Text))] := by
  decide +kernel

end Fragment

end Deeplink

import Deeplink.Proofs.Fragment.Commands
import Deeplink.Proofs.Json.RoundTrip
import Deeplink.Proofs.Text.Percent
import Mathlib.Data.List.Basic

/-!
# Commands there and back

A list of commands can be written as a fragment, and it is what the fragment is parsed to. No mark
of the payload is seen as a mark of the fragment, since all of them are escaped. What is written
here is what the wire grammar of the specification (6) allows.

- `Command.link`, `Fragment.ofCommands`: commands as tokens and as a fragment.
- `Command.IsLinkable`: what has to hold of a command that is linked to.
- `Command.IsLinkable.token`, `Command.IsLinkable.decode`: the parts of its token, and the
  arguments.
- `Fragment.parse_ofCommands`: the commands come back and nothing is reported.
-/

namespace Deeplink

/-! ## Cuts -/

namespace Text

/-- A text is cut at the first mark. -/
theorem cut_append {mark : Char} {t : Text} (h : .char mark ∉ t) (rest : Text) :
    cut mark (t ++ .char mark :: rest) = (t, some rest) := by
  induction t with
  | nil => exact if_pos rfl
  | cons c t ih =>
    have hc : c ≠ .char mark := fun hc => h (hc ▸ List.mem_cons_self)
    rw [List.cons_append, cut, if_neg hc, ih fun hmem => h (List.mem_cons_of_mem c hmem)]

/-- A text with one mark has something before it and something behind it. -/
theorem eq_append_of_count {c : CodePoint} {t : Text} (h : t.count c = 1) :
    ∃ front back, t = front ++ c :: back ∧ c ∉ front ∧ c ∉ back := by
  have hmem : c ∈ t := List.count_pos_iff.mp (by omega)
  obtain ⟨front, back, rfl, hfront⟩ := List.eq_append_cons_of_mem hmem
  refine ⟨front, back, rfl, hfront, ?_⟩
  rw [List.count_append, List.count_cons_self] at h
  exact List.count_eq_zero.mp (by omega)

end Text

/-! ## Links -/

namespace Command

/-- The arguments as data, with every mark escaped. -/
def linkedArguments (c : Command) : Text :=
  Percent.encode [] (Json.write .spaced (.obj c.args)).toChars

/-- A command as a token. -/
def link (c : Command) : Text :=
  c.method ++ .char ':' :: c.name ++ .char '?' :: c.linkedArguments

/-- The method is known and has two parts, no mark of a fragment is in the names, and the arguments
can be written and read: plain values, at most a hundred of them inside each other. -/
structure IsLinkable (methods : List Text) (c : Command) : Prop where
  known : c.method ∈ methods
  twoParts : c.method.count (.char ':') = 1
  method : .char '&' ∉ c.method ∧ .char '?' ∉ c.method
  name : .char ':' ∉ c.name ∧ .char '?' ∉ c.name ∧ .char '&' ∉ c.name
  plain : Json.isPlain 4300 (.obj c.args) = true
  levels : Json.membersLevels c.args ≤ 100

/-- No ampersand is in an escaped text. -/
theorem ampersand_not_mem_linkedArguments (c : Command) : .char '&' ∉ c.linkedArguments := by
  intro h
  rcases Percent.mem_encode h with h | ⟨a, ha, hplain⟩
  · cases h
  · cases ha
    revert hplain
    decide

namespace IsLinkable

variable {methods : List Text} {c : Command}

/-- The token has no ampersand. -/
theorem ampersand_not_mem (h : c.IsLinkable methods) : .char '&' ∉ c.link := by
  have hargs := c.ampersand_not_mem_linkedArguments
  simp only [link, List.mem_append, List.mem_cons, not_or]
  exact ⟨⟨h.method.1, by decide, h.name.2.2⟩, by decide, hargs⟩

/-- **The parts of the token** are those that it is made of. -/
theorem token (h : c.IsLinkable methods) :
    ∃ token, Token.ofText? c.link = some token ∧ token.method = c.method ∧ token.name = c.name
      ∧ token.arguments = some c.linkedArguments := by
  obtain ⟨front, back, hmethod, hfront, hback⟩ := Text.eq_append_of_count h.twoParts
  refine ⟨⟨front, back, c.name, some c.linkedArguments⟩, ?_, hmethod.symm, rfl, rfl⟩
  have hmark : .char '?' ∉ c.method ++ .char ':' :: c.name := by
    simp only [List.mem_append, List.mem_cons, not_or]
    exact ⟨h.method.2, by decide, h.name.2.1⟩
  -- three pieces, since the method has the first colon and the name has none
  have hpieces : Text.pieces ':' (c.method ++ .char ':' :: c.name) = [front, back, c.name] := by
    rw [hmethod, List.append_assoc, List.cons_append, Text.pieces,
      List.splitOn_append_cons_self_of_not_mem hfront,
      List.splitOn_append_cons_self_of_not_mem hback, List.splitOn_eq_singleton h.name.1]
  rw [Token.ofText?, link, Text.cut_append hmark]
  simp only [hpieces]

/-- **The arguments come back** from what is behind the question mark. -/
theorem decode (h : c.IsLinkable methods) :
    Arguments.decode (some c.linkedArguments) = .ok c.args := by
  have hscalar : (Json.write .spaced (.obj c.args)).isScalar = true :=
    Json.write_isScalar rfl rfl (.obj c.args) h.plain
  have hpercent : Percent.decode c.linkedArguments = .ok (Json.write .spaced (.obj c.args)) := by
    rw [linkedArguments, Percent.decode_encode, Text.ofChars_toChars hscalar]
  have hlevels : (Json.obj c.args).levels ≤ Json.strict.depth := by
    have hdepth : Json.strict.depth = 990 := rfl
    have := h.levels
    rw [Json.levels, hdepth]
    omega
  have hread : Json.read Json.strict (Json.write .spaced (.obj c.args)) = .ok (.obj c.args) :=
    Json.read_write Json.Style.spaced_isReadable (Json.isExact_of_isPlain _ h.plain) hlevels
  have htext : Arguments.ofText c.linkedArguments = .ok c.args := by
    rw [Arguments.ofText, hpercent]
    dsimp only
    rw [hread]
    rfl
  -- an empty text would be read as no arguments at all, but a brace is not written as nothing
  cases hempty : c.linkedArguments with
  | nil =>
    rw [hempty] at hpercent
    cases hpercent
  | cons first rest =>
    rw [← hempty, ← htext, hempty]
    rfl

end IsLinkable

end Command

/-! ## Fragments -/

namespace Fragment

variable {σ : Type} {methods : List Text}

/-- A list of commands as a fragment. -/
def ofCommands (cs : List Command) : Text :=
  .char '#' :: Text.join "&" (cs.map Command.link)

example : ofCommands [⟨"app:run", "order", [("é&", .int (-4))]⟩]
    = "#app:run:order?%7B%22%C3%A9%26%22%3A%20-4%7D" := by
  decide

theorem known?_link {c : Command} (h : c.IsLinkable methods) :
    ∃ token, known? methods c.link = some token ∧ token.method = c.method ∧ token.name = c.name
      ∧ token.arguments = some c.linkedArguments := by
  obtain ⟨token, htoken, hmethod, hname, hargs⟩ := h.token
  refine ⟨token, ?_, hmethod, hname, hargs⟩
  rw [known?, htoken, Option.filter_some, if_pos]
  rw [hmethod]
  exact decide_eq_true h.known

theorem command?_link {c : Command} (h : c.IsLinkable methods) :
    command? methods c.link = some c := by
  obtain ⟨token, htoken, hmethod, hname, hargs⟩ := known?_link h
  rw [command?, htoken, Option.map_some, hmethod, hname, hargs, Arguments.orNone, h.decode]

theorem diagnostic?_link {c : Command} (h : c.IsLinkable methods) :
    diagnostic? methods c.link = none := by
  obtain ⟨token, htoken, hmethod, hname, hargs⟩ := known?_link h
  rw [diagnostic?, htoken, Option.bind_some, hargs, Arguments.diagnostic?, h.decode]

/-- The tokens of a fragment are those it is made of. Without any there is still one, an empty
one. -/
theorem tokens_ofCommands {cs : List Command} (h : ∀ c ∈ cs, c.IsLinkable methods) :
    tokens (ofCommands cs) = if cs = [] then [[]] else cs.map Command.link := by
  show Text.pieces '&' (Text.join "&" (cs.map Command.link)) = _
  by_cases hcs : cs = []
  · rw [if_pos hcs, hcs]
    rfl
  · rw [if_neg hcs]
    refine List.splitOn_intercalate _ (fun t ht => ?_) fun hmap => hcs (List.map_eq_nil_iff.mp hmap)
    obtain ⟨c, hc, rfl⟩ := List.mem_map.mp ht
    exact (h c hc).ampersand_not_mem

theorem commands_ofCommands {cs : List Command} (h : ∀ c ∈ cs, c.IsLinkable methods) :
    commands methods (some (ofCommands cs)) = cs := by
  rw [commands, Option.getD_some, tokens_ofCommands h]
  by_cases hcs : cs = []
  · subst hcs
    rfl
  · have hlink : cs.filterMap (command? methods ∘ Command.link) = cs.filterMap some :=
      List.filterMap_congr fun c hc => command?_link (h c hc)
    rw [if_neg hcs, List.filterMap_map, hlink, List.filterMap_some]

theorem diagnostics_ofCommands {cs : List Command} (h : ∀ c ∈ cs, c.IsLinkable methods) :
    diagnostics methods (some (ofCommands cs)) = [] := by
  rw [diagnostics, Option.getD_some, tokens_ofCommands h]
  by_cases hcs : cs = []
  · subst hcs
    rfl
  · rw [if_neg hcs, List.filterMap_map]
    exact List.filterMap_eq_nil_iff.mpr fun c hc => diagnostic?_link (h c hc)

/-- **What is written as a fragment is what the fragment is parsed to**, in the same order and with
the same arguments. The sink is not told anything, and nothing is logged. -/
theorem parse_ofCommands (sink : Option (Sink σ)) (cs : List Command)
    (h : ∀ c ∈ cs, c.IsLinkable methods) (s : σ) :
    parse methods sink (some (ofCommands cs)) s = ⟨.ok cs, s, []⟩ := by
  rw [parse_quiet (diagnostics_ofCommands h), commands_ofCommands h]

/-- Two commands whose payloads hold every mark of a fragment, and a character of each length. -/
def linkedPair : List Command :=
  [⟨"app:run", "order", [("a&b", .arr [.int (-42), .null, .bool true, .obj [("", .arr [])]]),
      ("?", .str "\"\\\n\x7f é:€ 😀")]⟩,
    ⟨"app:open", "", []⟩]

theorem parse_linkedPair :
    (∀ c ∈ linkedPair, c.IsLinkable ["app:open", "app:run"])
      ∧ parse ["app:open", "app:run"] (none : Option (Sink Unit)) (some (ofCommands linkedPair)) ()
        = ⟨.ok linkedPair, (), []⟩ := by
  have h : ∀ c ∈ linkedPair, c.IsLinkable ["app:open", "app:run"] := by
    intro c hc
    rcases List.mem_cons.mp hc with rfl | hc
    · constructor <;> decide
    · obtain rfl := List.mem_singleton.mp hc
      constructor <;> decide
  exact ⟨h, parse_ofCommands none linkedPair h ()⟩

end Fragment

end Deeplink

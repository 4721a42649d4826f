import Deeplink.Log.Record
import Deeplink.Proofs.Json.Members
import Deeplink.Proofs.Json.OneLine
import Deeplink.Proofs.Json.RoundTrip

/-!
# Lines of records

The line of a record is one line of text, and the strict reader gives back what has been written: no
name, message or report can break out of its member. A record is one JSON object with the extras of
its command (specification, 10.2).

- `Log.Record.Parts`: what a line is made of.
- `Log.Record.extras`: the members of the requested attributes that are set.
- `Log.Record.lineMembers`: all members of a line, in order.
- `Log.Record.members_eq`: these are what is written.
- `Log.Record.line_reads_back`: and these are what is read.
-/

namespace Deeplink.Json

/-! ## Members of exact values -/

theorem membersExact_iff {digits : Nat} {members : List (Text × Json)} :
    membersExact digits members = true ↔ ∀ m ∈ members, isExact digits m.2 = true := by
  induction members with
  | nil => exact ⟨fun _ => nofun, fun _ => rfl⟩
  | cons m members ih => rw [membersExact, Bool.and_eq_true, ih, List.forall_mem_cons]

theorem membersLevels_le_iff {n : Nat} {members : List (Text × Json)} :
    membersLevels members ≤ n ↔ ∀ m ∈ members, m.2.levels ≤ n := by
  induction members with
  | nil => exact ⟨fun _ => nofun, fun _ => Nat.zero_le n⟩
  | cons m members ih => rw [membersLevels, Nat.max_le, ih, List.forall_mem_cons]

end Deeplink.Json

namespace Deeplink.Log.Record

/-! ## Parts -/

/-- What the line of a record is made of, besides the requested attributes. -/
structure Parts (r : Record) (moment : Moment) (level logger message : Text)
    (report : Option Text) : Prop where
  moment : r.moment = .ok moment
  level : r.get "levelname" = .data (.str level)
  logger : r.get "name" = .data (.str logger)
  message : r.filledMessage = .ok message
  report : r.report? = .ok report

/-- The attributes that every record has and that go into its line, but for the name of its
level. -/
def lineAttributes : List Text := ["name", "msg", "args", "exc_info", "created"]

/-- If no further attribute hides one of these, and nothing is filled into the message, the parts
are those that the record has been made with. The level may have any name. -/
theorem Parts.of_unhidden {r : Record} {moment : Moment} {level : Text}
    (hidden : ∀ name ∈ lineAttributes, r.further? name = none) (harguments : r.arguments = [])
    (hlevel : r.get "levelname" = .data (.str level))
    (hmoment : Moment.ofSeconds r.created = .ok moment) :
    r.Parts moment level r.name r.message (r.failure.map fun _ => r.report) := by
  have hname := hidden "name" (by decide)
  have hmsg := hidden "msg" (by decide)
  have hargs := hidden "args" (by decide)
  have hexc := hidden "exc_info" (by decide)
  have hcreated := hidden "created" (by decide)
  exact {
    moment := by
      have hget : r.get "created" = .data (.float r.created) := by
        rw [get, get?, hcreated]
        rfl
      rw [Record.moment, hget]
      dsimp only
      rw [hmoment]
      rfl
    level := hlevel
    logger := by
      rw [get, get?, hname]
      rfl
    message := by
      have hget : r.get "msg" = .data (.str r.message) := by
        rw [get, get?, hmsg]
        rfl
      rw [filledMessage, filling?, hargs, harguments, hget]
      rfl
    report := by rw [report?, hexc] }

/-! ## Requested attributes -/

/-- What a service sets an attribute to: a text, an integer that is not too long, or nothing. -/
def IsExtra : Option Attribute → Prop
  | none | some (.data .null) | some (.data (.str _)) => True
  | some (.data (.int n)) => (Nat.toDigits 10 n.natAbs).length ≤ Json.strict.integerDigits
  | _ => False

/-- The member of an attribute that is set. -/
def extra? (r : Record) (field : Text) : Option (Text × Json) :=
  match r.get? field with
  | none | some (.data .null) => none
  | some v => some (field, v.toJson)

/-- The members of the attributes that are set. -/
def extras (r : Record) (fields : List Text) : List (Text × Json) := fields.filterMap r.extra?

/-- A field is written under its own name. -/
theorem fst_of_extra? {r : Record} {field : Text} {m : Text × Json} (h : r.extra? field = some m) :
    m.1 = field := by
  unfold extra? at h
  split at h
  · cases h
  · cases h
  · obtain rfl := Option.some.inj h
    rfl

/-- Fields are written in their order, and each at most once. -/
theorem keys_extras_sublist (r : Record) (fields : List Text) :
    ((r.extras fields).map Prod.fst).Sublist fields := by
  induction fields with
  | nil => exact List.Sublist.refl _
  | cons field fields ih =>
    rw [extras, List.filterMap_cons]
    cases h : r.extra? field with
    | none => exact ih.cons field
    | some m =>
      rw [List.map_cons, fst_of_extra? h]
      exact ih.cons_cons field

/-- An attribute that is set becomes a member, and another one changes nothing. -/
theorem withFields_cons (r : Record) (field : Text) (fields : List Text)
    (members : List (Text × Json)) : r.withFields (field :: fields) members
      = r.withFields fields ((r.extra? field).elim members fun m => Keyed.set m.1 m.2 members) := by
  show r.withFields fields _ = _
  congr 1
  unfold extra?
  dsimp only
  generalize r.get? field = value
  rcases value with _ | v | t
  · rfl
  · cases v <;> rfl
  · rfl

/-- Requested attributes with new names come behind the other members. -/
theorem withFields_eq {r : Record} {fields : List Text} {members : List (Text × Json)}
    (hnodup : fields.Nodup) (hnew : ∀ field ∈ fields, field ∉ members.map Prod.fst) :
    r.withFields fields members = members ++ r.extras fields := by
  induction fields generalizing members with
  | nil => exact (List.append_nil members).symm
  | cons field fields ih =>
    obtain ⟨hfield, hrest⟩ := List.nodup_cons.mp hnodup
    obtain ⟨hhead, hothers⟩ := List.forall_mem_cons.mp hnew
    rw [withFields_cons, extras, List.filterMap_cons]
    cases h : r.extra? field with
    | none => exact ih hrest hothers
    | some m =>
      obtain rfl := fst_of_extra? h
      have hothers' : ∀ field ∈ fields, field ∉ (members ++ [m]).map Prod.fst := by
        intro field hmem hkey
        rw [List.map_append, List.mem_append] at hkey
        rcases hkey with hkey | hkey
        · exact hothers field hmem hkey
        · obtain rfl := List.mem_singleton.mp hkey
          exact hfield hmem
      show r.withFields fields (Keyed.set m.1 m.2 members) = _
      rw [Keyed.set_eq_append m.2 hhead, ih hrest hothers', List.append_assoc]
      rfl

/-- The value of an attribute that is set can be read. -/
theorem isExact_of_isExtra {r : Record} {field : Text} {m : Text × Json}
    (hextra : IsExtra (r.get? field)) (h : r.extra? field = some m) :
    Json.isExact Json.strict.integerDigits m.2 = true ∧ m.2.levels = 0 := by
  unfold extra? at h
  generalize r.get? field = value at h hextra
  rcases value with _ | v | t
  · cases h
  · cases v with
    | null => cases h
    | str t =>
      cases h
      exact ⟨rfl, rfl⟩
    | int n =>
      cases h
      exact ⟨decide_eq_true hextra, rfl⟩
    | bool b => exact hextra.elim
    | float x => exact hextra.elim
    | arr items => exact hextra.elim
    | obj members => exact hextra.elim
  · exact hextra.elim

/-! ## Lines -/

/-- The members that every line has. -/
def fixedMembers (moment : Moment) (level logger message : Text) : List (Text × Json) :=
  [("timestamp", .str moment.text), ("level", .str level), ("logger", .str logger),
    ("message", .str message)]

/-- The member of a report. -/
def reportMember : Option Text → List (Text × Json)
  | none => []
  | some report => [("exception", .str report)]

/-- The members of a line: the fixed ones, those of the attributes that are set, and the report of
a failure, if there is one. -/
def lineMembers (r : Record) (moment : Moment) (level logger message : Text)
    (report : Option Text) : List (Text × Json) :=
  fixedMembers moment level logger message ++ r.extras standardFields ++ reportMember report

/-- The names of the members that every line has. -/
def fixedNames : List Text := ["timestamp", "level", "logger", "message"]

/-- The names that members of lines can have, in order. -/
def lineNames : List Text := fixedNames ++ standardFields ++ [("exception" : Text)]

/-- No two parts of a line have one name. -/
theorem lineNames_nodup : lineNames.Nodup := by decide

section Line

variable {r : Record} {moment : Moment} {level logger message : Text} {report : Option Text}

theorem keys_fixedMembers :
    (fixedMembers moment level logger message).map Prod.fst = fixedNames := rfl

theorem keys_lineMembers_sublist :
    ((r.lineMembers moment level logger message report).map Prod.fst).Sublist lineNames := by
  rw [lineMembers, List.map_append, List.map_append]
  refine ((List.Sublist.refl _).append (keys_extras_sublist r standardFields)).append ?_
  cases report with
  | none => exact List.nil_sublist _
  | some t => exact List.Sublist.refl _

/-- **No name comes twice.** -/
theorem keys_lineMembers_nodup :
    ((r.lineMembers moment level logger message report).map Prod.fst).Nodup :=
  lineNames_nodup.sublist keys_lineMembers_sublist

/-- **What is written into a line**: the members in order. -/
theorem members_eq (h : r.Parts moment level logger message report) :
    r.members standardFields = .ok (r.lineMembers moment level logger message report) := by
  have hfields : r.withFields standardFields (fixedMembers moment level logger message)
      = fixedMembers moment level logger message ++ r.extras standardFields := by
    refine withFields_eq (by decide) ?_
    rw [keys_fixedMembers]
    decide
  have hexception : ("exception" : Text) ∉
      (fixedMembers moment level logger message ++ r.extras standardFields).map Prod.fst := by
    intro hmem
    have hnames : ("exception" : Text) ∈ fixedNames ++ standardFields := by
      rw [List.map_append, keys_fixedMembers] at hmem
      have hsublist :=
        (List.Sublist.refl fixedNames).append (keys_extras_sublist r standardFields)
      exact hsublist.subset hmem
    revert hnames
    decide
  rw [members, h.moment, h.message, h.level, h.logger, h.report, lineMembers, ← hfields]
  rw [← hfields] at hexception
  cases report with
  | none => exact congrArg Except.ok (List.append_nil _).symm
  | some report => exact congrArg Except.ok (Keyed.set_eq_append _ hexception)

/-- The members of a line can be read. -/
theorem isExact_lineMembers (hextras : ∀ field ∈ standardFields, IsExtra (r.get? field)) :
    ∀ m ∈ r.lineMembers moment level logger message report,
      Json.isExact Json.strict.integerDigits m.2 = true ∧ m.2.levels = 0 := by
  intro m hm
  rw [lineMembers, List.mem_append, List.mem_append] at hm
  rcases hm with (hm | hm) | hm
  · -- each of the four is a text
    simp only [fixedMembers, List.mem_cons, List.not_mem_nil, or_false] at hm
    rcases hm with rfl | rfl | rfl | rfl
    all_goals exact ⟨rfl, rfl⟩
  · obtain ⟨field, hfield, hextra⟩ := List.mem_filterMap.mp hm
    exact isExact_of_isExtra (hextras field hfield) hextra
  · cases report with
    | none => cases hm
    | some t =>
      obtain rfl := List.mem_singleton.mp hm
      exact ⟨rfl, rfl⟩

/-- What can be said of the line of a record. -/
structure ReadsBack (r : Record) (moment : Moment) (level logger message : Text)
    (report : Option Text) (line : Text) : Prop where
  /-- It is the line of the record. -/
  written : r.line standardFields = .ok line
  /-- Nothing below `U+0020` is in it. -/
  oneLine : ∀ c ∈ line, 0x20 ≤ c.toNat
  /-- The strict reader gives the members: time, level, logger and message as they are, then the
  attributes that are set, in the order in which they are requested, then the report if there is
  one. -/
  read : Json.read Json.strict line
    = .ok (.obj (r.lineMembers moment level logger message report))
  /-- Each name comes once. -/
  once : ((r.lineMembers moment level logger message report).map Prod.fst).Nodup

/-- **A line reads back as its record**, whatever the name of the logger, the level, the message,
the attributes and the report of a failure are, its traces included. -/
theorem line_reads_back (h : r.Parts moment level logger message report)
    (hextras : ∀ field ∈ standardFields, IsExtra (r.get? field)) :
    ∃ line, ReadsBack r moment level logger message report line := by
  have hvalues := @isExact_lineMembers r moment level logger message report hextras
  have hexact : Json.isExact Json.strict.integerDigits
      (.obj (r.lineMembers moment level logger message report)) = true := by
    rw [Json.isExact, decide_eq_true keys_lineMembers_nodup, Bool.true_and]
    exact Json.membersExact_iff.mpr fun m hm => (hvalues m hm).1
  have hlevels : (Json.obj (r.lineMembers moment level logger message report)).levels
      ≤ Json.strict.depth := by
    have hmembers : Json.membersLevels (r.lineMembers moment level logger message report) ≤ 0 :=
      Json.membersLevels_le_iff.mpr fun m hm => Nat.le_of_eq (hvalues m hm).2
    rw [Json.levels, Nat.le_zero.mp hmembers]
    decide
  refine ⟨Json.write .spaced (.obj (r.lineMembers moment level logger message report)), ?_⟩
  exact {
    written := by
      rw [line, members_eq h]
      rfl
    oneLine := Text.isOneLine_iff.mp (Json.write_isOneLine Json.Style.spaced_isOneLine _ hexact)
    read := Json.read_write Json.Style.spaced_isReadable hexact hlevels
    once := keys_lineMembers_nodup }

end Line

/-- A record whose name, level, message and report are made to break out of their members. The
position is zero, and the command is set to nothing. -/
def unruly : Record where
  name := "a\"\x7d\n\x7b\"b"
  level := 20
  message := Text.ofString "\"\\\r\n\u0085" ++ [.surrogate ⟨0, by decide⟩]
  arguments := []
  created := ⟨0⟩
  attributes := [("levelname", .data (.str "\",\"message\":\"")), ("position", .data (.int 0)),
    ("command", .data .null), ("method", .data (.str "e:run\n"))]
  failure := some (.of (.raised .runtime "no\tline"))
  report := "Traceback\n  \x7b\"line\"\x7d\nRuntimeError: no\tline"

/-- A record with quotation marks, braces and line breaks in all its texts is read back from its
line. -/
theorem unruly_reads_back : ∃ line, unruly.line standardFields = .ok line
    ∧ (∀ c ∈ line, 0x20 ≤ c.toNat)
    ∧ Json.read Json.strict line = .ok (.obj [
      ("timestamp", .str "1970-01-01T00:00:00+00:00"), ("level", .str "\",\"message\":\""),
      ("logger", .str "a\"\x7d\n\x7b\"b"), ("message", .str unruly.message),
      ("method", .str "e:run\n"), ("position", .int 0),
      ("exception", .str "Traceback\n  \x7b\"line\"\x7d\nRuntimeError: no\tline")]) := by
  have hparts : unruly.Parts ⟨1970, 1, 1, 0, 0, 0, 0, 0⟩ "\",\"message\":\"" unruly.name
      unruly.message (unruly.failure.map fun _ => unruly.report) :=
    .of_unhidden (by decide) rfl rfl (by decide +kernel)
  have hextras : ∀ field ∈ standardFields, IsExtra (unruly.get? field) := by
    have hposition : IsExtra (unruly.get? "position") := by
      show (Nat.toDigits 10 0).length ≤ 4300
      decide
    simp only [standardFields, List.forall_mem_cons]
    exact ⟨trivial, trivial, trivial, hposition, trivial, nofun⟩
  obtain ⟨line, h⟩ := line_reads_back hparts hextras
  exact ⟨line, h.written, h.oneLine, h.read⟩

end Deeplink.Log.Record

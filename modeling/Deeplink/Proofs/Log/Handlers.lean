import Deeplink.Log.Root
import Mathlib.Data.List.Nodup

/-!
# The handlers of the root

The list of handlers is shared. Other code adds its own handlers and removes them again, wherever in
the list they are, while the service replaces the one that it owns. Setting up installs one handler
(specification, 10.2), and it may be called more than once.

- `Log.Handler.isOwn`, `Log.Root.own`, `Log.Root.others`: the handlers of the service, and those of
  other code.
- `Log.Root.Aside`: what other code does.
- `Log.Root.History`: the handlers that the service has installed so far, and the root after that.
- `Log.Root.Invariant`: no handler of the service is left but the last one that it has installed.
- `Log.Root.handler_replaced`: what every further call leaves.
-/

namespace Deeplink.Log

/-- Whether the service has installed the handler. -/
def Handler.isOwn : Handler → Bool
  | .own _ _ => true
  | .foreign _ => false

namespace Root

variable {r r' : Root} {made : List Handler}

/-! ## Shares of the list -/

/-- The handlers of the service. -/
def own (r : Root) : List Handler := r.handlers.filter Handler.isOwn

/-- The handlers of other code. -/
def others (r : Root) : List Handler := r.handlers.filter fun h => !h.isOwn

/-- What is the only one of its kind in a list leaves all of the other kind. -/
theorem erase_of_filter_sublist {α : Type} [DecidableEq α] {p : α → Bool} {a : α} (ha : p a = true)
    {xs : List α} (h : (xs.filter p).Sublist [a]) : xs.erase a = xs.filter fun x => !p x := by
  induction xs with
  | nil => rfl
  | cons x xs ih =>
    by_cases hx : p x = true
    · -- this is the one, so that there is none of the kind behind it
      rw [List.filter_cons_of_pos hx] at h
      have hlength := h.length_le
      have hrest : xs.filter p = [] := by
        rw [List.length_cons, List.length_singleton] at hlength
        exact List.eq_nil_of_length_eq_zero (by omega)
      obtain rfl : x = a := by
        rw [hrest] at h
        exact List.mem_singleton.mp (h.subset (List.mem_singleton_self x))
      rw [List.erase_cons_head, List.filter_cons_of_neg (by simp [hx])]
      refine (List.filter_eq_self.mpr fun y hy => ?_).symm
      simpa using List.filter_eq_nil_iff.mp hrest y hy
    · have hne : x ≠ a := by
        rintro rfl
        exact hx ha
      rw [List.filter_cons_of_neg hx] at h
      rw [List.erase_cons_tail (by simpa using hne), List.filter_cons_of_pos (by simpa using hx),
        ih h]

/-! ## Other code -/

/-- Other code adds handlers of its own and removes them, anywhere in the list. It may set the
level, and even take the handler of the service away. -/
structure Aside (r r' : Root) : Prop where
  own : r'.own.Sublist r.own
  current : r'.current = r.current
  installed : r'.installed = r.installed

/-- Adds a handler at the end, unless it is there already. -/
def add (h : Handler) (r : Root) : Root :=
  if h ∈ r.handlers then r else { r with handlers := r.handlers ++ [h] }

/-- Removes a handler, if it is there. -/
def remove (h : Handler) (r : Root) : Root := { r with handlers := r.handlers.erase h }

theorem Aside.add_foreign (label : Nat) (r : Root) : Aside r (r.add (.foreign label)) := by
  unfold add
  split
  · exact ⟨List.Sublist.refl _, rfl, rfl⟩
  · refine ⟨?_, rfl, rfl⟩
    show (List.filter _ (r.handlers ++ _)).Sublist _
    rw [List.filter_append]
    exact (List.append_nil _).symm ▸ List.Sublist.refl _

theorem Aside.remove (h : Handler) (r : Root) : Aside r (r.remove h) :=
  ⟨List.erase_sublist.filter _, rfl, rfl⟩

/-! ## Calls -/

/-- To set the level touches no handler, whether it succeeds or not. -/
theorem setLevel_snd (name : Text) (r : Root) :
    ∃ level, (r.setLevel name).2 = { r with level } := by
  unfold setLevel
  split
  · exact ⟨_, rfl⟩
  · exact ⟨_, rfl⟩
  · exact ⟨_, rfl⟩

/-- Setting up installs a handler and a level. -/
theorem setUp_snd (level form : Text) (r : Root) :
    ∃ n, (r.setUp level form).2 = { r.install (Form.ofName form) with level := n } :=
  setLevel_snd level _

/-- The handlers that the service has installed so far, the newest one last, and the root after
that. In the beginning there are none of them; all others may be there. -/
inductive History : List Handler → Root → Prop where
  | start {r : Root} (hown : r.own = []) (hcurrent : r.current = none)
      (hinstalled : r.installed = 0) : History [] r
  | setUp {made : List Handler} {r : Root} (h : History made r) (level form : Text) :
      History (made ++ (r.setUp level form).2.current.toList) (r.setUp level form).2
  | aside {made : List Handler} {r r' : Root} (h : History made r) (haside : Aside r r') :
      History made r'

/-- The service owns the handler that it has installed last. It is the only one that may be left. -/
structure Invariant (made : List Handler) (r : Root) : Prop where
  installed : r.installed = made.length
  current : r.current = made.getLast?
  numbered : ∀ i h, made[i]? = some h → ∃ form, h = Handler.own i form
  own : r.own.Sublist r.current.toList

theorem Invariant.isOwn (h : Invariant made r) {handler : Handler}
    (hcurrent : r.current = some handler) : handler.isOwn = true := by
  rw [h.current, List.getLast?_eq_getElem?] at hcurrent
  obtain ⟨form, rfl⟩ := h.numbered _ _ hcurrent
  rfl

/-- Without the handler that the service owns there are only those of other code. -/
theorem Invariant.withoutOwn_eq (h : Invariant made r) : r.withoutOwn = r.others := by
  have hown := h.own
  unfold withoutOwn
  cases hcurrent : r.current with
  | none =>
    rw [hcurrent] at hown
    have hnone := List.filter_eq_nil_iff.mp (List.sublist_nil.mp hown)
    exact (List.filter_eq_self.mpr fun x hx => by simpa using hnone x hx).symm
  | some handler =>
    rw [hcurrent] at hown
    exact erase_of_filter_sublist (h.isOwn hcurrent) hown

/-- The newest handler has the next number. -/
theorem Invariant.newest (h : Invariant made r) (level form : Text) :
    (r.setUp level form).2.current = some (.own made.length (Form.ofName form)) := by
  obtain ⟨n, hroot⟩ := setUp_snd level form r
  rw [hroot, ← h.installed]
  rfl

/-- **What setting up leaves behind**: the handlers of others, in their order, and one more of its
own. -/
theorem Invariant.handlers (h : Invariant made r) (level form : Text) :
    (r.setUp level form).2.handlers
      = r.others ++ [.own made.length (Form.ofName form)] := by
  obtain ⟨n, hroot⟩ := setUp_snd level form r
  rw [hroot, ← h.installed, ← h.withoutOwn_eq]
  rfl

/-- No handler of the service has been among those of other code. -/
theorem filter_others (r : Root) : r.others.filter Handler.isOwn = [] := by
  rw [others, List.filter_filter]
  exact List.filter_eq_nil_iff.mpr fun x _ => by simp

theorem Invariant.own_setUp (h : Invariant made r) (level form : Text) :
    (r.setUp level form).2.own = [.own made.length (Form.ofName form)] := by
  rw [Root.own, h.handlers, List.filter_append, filter_others]
  rfl

theorem Invariant.others_setUp (h : Invariant made r) (level form : Text) :
    (r.setUp level form).2.others = r.others := by
  rw [Root.others, h.handlers, List.filter_append, others, List.filter_filter]
  simp [Handler.isOwn]

/-- What has been installed before has another number. -/
theorem Invariant.newest_not_mem (h : Invariant made r) (form : Form) :
    Handler.own made.length form ∉ made := by
  intro hmem
  obtain ⟨i, hi⟩ := List.mem_iff_getElem?.mp hmem
  obtain ⟨form', hform⟩ := h.numbered i _ hi
  have hlt := (List.getElem?_eq_some_iff.mp hi).1
  injection hform with hserial
  omega

/-- Setting up keeps the invariant, and what it has made is one handler more. -/
theorem Invariant.setUp (h : Invariant made r) (level form : Text) :
    Invariant (made ++ (r.setUp level form).2.current.toList) (r.setUp level form).2 := by
  have hown := h.own_setUp level form
  have hnewest := h.newest level form
  obtain ⟨n, hroot⟩ := setUp_snd level form r
  rw [hnewest]
  refine { installed := ?_, current := ?_, numbered := ?_, own := ?_ }
  · rw [hroot, Option.toList_some, List.length_append, ← h.installed]
    rfl
  · rw [hnewest, Option.toList_some, List.getLast?_concat]
  · intro i x hx
    rw [Option.toList_some, List.getElem?_append] at hx
    split at hx
    · exact h.numbered i x hx
    · have hi := (List.getElem?_eq_some_iff.mp hx).1
      rw [List.length_singleton] at hi
      obtain rfl : i = made.length := by omega
      rw [Nat.sub_self] at hx
      exact ⟨_, (Option.some.inj hx).symm⟩
  · rw [hown, hnewest]
    exact List.Sublist.refl _

/-- Others keep the invariant, if they leave alone what setting up has made. -/
theorem Invariant.aside (h : Invariant made r) (haside : Aside r r') : Invariant made r' where
  installed := haside.installed.trans h.installed
  current := haside.current.trans h.current
  numbered := h.numbered
  own := haside.current ▸ haside.own.trans h.own

/-- **No handler of the service accumulates**, whatever other code does in between. -/
theorem History.invariant (h : History made r) : Invariant made r := by
  induction h with
  | start hown hcurrent hinstalled =>
    refine { installed := hinstalled, current := hcurrent, numbered := nofun, own := ?_ }
    rw [hown]
    exact List.nil_sublist _
  | setUp _ level form ih => exact ih.setUp level form
  | aside _ haside ih => exact ih.aside haside

/-! ## Replacement -/

/-- What a call leaves at the root: `new` is the handler that the service owns then. -/
structure Replaced (made : List Handler) (r : Root) (form : Text) (new : Handler) (r' : Root) :
    Prop where
  /-- The service owns it, -/
  current : r'.current = some new
  /-- and it is none that has been installed before. -/
  newest : new ∉ made
  /-- It is behind all handlers of other code, which are those that have been there before, in the
  same order. -/
  handlers : r'.handlers = r.others ++ [new]
  /-- There is no other one of the service, -/
  single : r'.own = [new]
  /-- and none of other code has been lost or added. -/
  others : r'.others = r.others
  /-- It writes JSON lines exactly if that has been asked for, and lines of text otherwise. -/
  form : new.form? = some (if form = "json" then .jsonLines else .textLines)

/-- **Every call replaces the one handler of the service by a new one at the end and leaves all
others alone**, whether the level can be set or not, in every history of calls and of what other
code does between them. -/
theorem handler_replaced (h : History made r) (level form : Text) :
    ∃ new, Replaced made r form new (r.setUp level form).2 := by
  have hinvariant := h.invariant
  refine ⟨.own made.length (Form.ofName form), ?_⟩
  exact {
    current := hinvariant.newest level form
    newest := hinvariant.newest_not_mem _
    handlers := hinvariant.handlers level form
    single := hinvariant.own_setUp level form
    others := hinvariant.others_setUp level form
    form := rfl }

/-- A root with two handlers of other code. The service installs its own, one of the others goes,
and another one comes. -/
def shared : Root :=
  ((({ handlers := [.foreign 7, .foreign 3] } : Root).setUp "info" "json").2.remove
    (.foreign 7)).add (.foreign 9)

/-- The next call cannot set the level, but the handler is replaced all the same. -/
theorem failing_call_replaces : History [.own 0 .jsonLines] shared
    ∧ shared.handlers = [.foreign 3, .own 0 .jsonLines, .foreign 9]
    ∧ (shared.setUp "basic_format" "xml").1 = .error (.unknown recordFormat)
    ∧ (∃ new, Replaced [.own 0 .jsonLines] shared "xml" new (shared.setUp "basic_format" "xml").2)
    ∧ (shared.setUp "basic_format" "xml").2.handlers
      = [.foreign 3, .foreign 9, .own 1 .textLines] := by
  have hinstalled : History [.own 0 .jsonLines] _ :=
    .setUp (r := { handlers := [.foreign 7, .foreign 3] }) (.start rfl rfl rfl) "info" "json"
  have hhistory : History [.own 0 .jsonLines] shared :=
    (hinstalled.aside (.remove (.foreign 7) _)).aside (.add_foreign 9 _)
  exact ⟨hhistory, rfl, rfl, handler_replaced hhistory "basic_format" "xml", rfl⟩

end Root

end Deeplink.Log

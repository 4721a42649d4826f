import Deeplink.Proofs.Fragment.Recorded
import Deeplink.Proofs.Json.Completeness
import Deeplink.Proofs.Json.Soundness

/-!
# Decoded arguments

The text behind a question mark has arguments if it encodes a JSON object, and it has none, and one
report, if it does not. Decoding is strict: malformed escapes, wrong octets and all that is no JSON
object are failures (specification, 4.1, step 8).

- `Arguments.Encodes`: the text behind the escapes is that of an object with these members.
- `Arguments.encodes_of_decode`, `Arguments.decode_of_spells`: what is decoded has been encoded, and
  what has been encoded is decoded if it lies within the limits.
- `Fragment.DecodedTo`: the arguments of a text and the reports about it, whatever the sink does.
- `Fragment.decodeArguments_strict`: only JSON objects are decoded, and all of them are that lie
  within the limits.
-/

namespace Deeplink

open Json

namespace Arguments

/-! ## Objects behind escapes -/

/-- The text behind the escapes is a JSON object with these members and blanks around it. -/
def Encodes (raw : Text) (args : Args) : Prop :=
  ∃ text pairs, Percent.decode raw = .ok text ∧ SpellsElement text (.obj pairs)
    ∧ Denotes (.obj pairs) (.obj args)

variable {raw text : Text} {args : Args} {pairs : List (Text × Written)}

/-- A text encodes one object. -/
theorem Encodes.unique {args' : Args} (h : Encodes raw args) (h' : Encodes raw args') :
    args = args' := by
  obtain ⟨text, pairs, htext, hspells, hdenotes⟩ := h
  obtain ⟨text', pairs', htext', hspells', hdenotes'⟩ := h'
  obtain rfl : text = text' := Except.ok.inj (htext.symm.trans htext')
  have hvalue := hspells.value_unique hspells'
  rw [← hdenotes.eq_value, ← hdenotes'.eq_value] at hvalue
  exact Json.obj.inj hvalue

theorem decode_some (hraw : raw ≠ []) : decode (some raw) = ofText raw := by
  cases raw with
  | nil => exact absurd rfl hraw
  | cons c rest => rfl

theorem eq_obj_of_ofJson {v : Json} (h : ofJson v = .ok args) : v = .obj args := by
  cases v with
  | obj members =>
    obtain rfl : members = args := Except.ok.inj h
    rfl
  | _ => cases h

/-- **What is decoded has been encoded.** -/
theorem encodes_of_decode (hraw : raw ≠ []) (h : decode (some raw) = .ok args) :
    Encodes raw args := by
  rw [decode_some hraw, ofText] at h
  split at h
  · cases h
  · next text htext =>
    split at h
    · cases h
    · next v hread =>
      obtain rfl := eq_obj_of_ofJson h
      obtain ⟨w, hspells, hvalue⟩ := read_spells rfl hread
      obtain ⟨pairs, rfl⟩ := Written.eq_obj_of_value hvalue
      exact ⟨text, pairs, htext, hspells, hvalue ▸ denotes_value (.obj pairs)⟩

/-- **What has been encoded is decoded**, if it lies within the limits. -/
theorem decode_of_spells (hraw : raw ≠ []) (htext : Percent.decode raw = .ok text)
    (hspells : SpellsElement text (.obj pairs)) (hdenotes : Denotes (.obj pairs) (.obj args))
    (hlevels : (Written.obj pairs).levels ≤ strict.depth)
    (hdigits : (Written.obj pairs).integerDigits ≤ strict.integerDigits) :
    decode (some raw) = .ok args := by
  rw [decode_some hraw, ofText, htext]
  dsimp only
  rw [read_complete hspells hlevels hdigits, ← hdenotes.eq_value]
  rfl

/-- What is reported has no arguments. -/
theorem orNone_of_reported {payload : Option Text} {d : Diagnostic}
    (h : diagnostic? payload = some d) : orNone payload = [] := by
  unfold diagnostic? at h
  unfold orNone
  cases hdecode : decode payload with
  | ok args =>
    rw [hdecode] at h
    cases h
  | error fault => rfl

end Arguments

namespace Fragment

/-! ## Reports -/

/-- To decode a text is to report `ds` and to have `args`, whatever the sink does. -/
structure DecodedTo (raw : Text) (args : Args) (ds : List Diagnostic) : Prop where
  /-- One report is made after the other, and then there are the arguments. -/
  acts : ∀ {σ : Type} (sink : Option (Sink σ)),
    decodeArguments sink (some raw) = reportAll sink ds >>= fun _ => pure args
  /-- A sink that is not cancelled is told of the reports, and no failure of its own is left. -/
  told : ∀ {σ : Type} (tell : Sink σ), IsOrdinary (some tell) → ∀ told s, ∃ s' trace,
    decodeArguments (some tell.recorded) (some raw) (told, s) = ⟨.ok args, (told ++ ds, s'), trace⟩
  /-- Without a sink the reports are logged. -/
  logged : ∀ {σ : Type} (s : σ),
    decodeArguments none (some raw) s = ⟨.ok args, s, ds.map fun d => .notice d.notice⟩

theorem decodedTo (raw : Text) : DecodedTo raw (Arguments.orNone (some raw))
    (Arguments.diagnostic? (some raw)).toList where
  acts sink := decodeArguments_eq sink (some raw)
  told tell htell told s := by
    have hok := reportAll_of_ordinary htell (Arguments.diagnostic? (some raw)).toList s
    rw [decodeArguments_recorded htell, recording, decodeArguments_eq, Act.bind_of_ok hok]
    exact ⟨_, _, rfl⟩
  logged s := by
    rw [decodeArguments_eq]
    cases Arguments.diagnostic? (some raw) with
    | none => rfl
    | some d => rfl

/-- Which arguments a text has, and how many reports. -/
structure DecodedStrictly (raw : Text) (args : Args) (ds : List Diagnostic) : Prop where
  decoded : DecodedTo raw args ds
  /-- Without a report, the text encodes an object, and the arguments are its members. -/
  sound : ds = [] → Arguments.Encodes raw args
  /-- No text encodes two objects. -/
  unique : ∀ args args', Arguments.Encodes raw args → Arguments.Encodes raw args' → args = args'
  /-- An object that does not lie too deep and has no integer with too many digits is decoded
  without a report. -/
  complete : ∀ text pairs args', Percent.decode raw = .ok text →
    SpellsElement text (.obj pairs) → Denotes (.obj pairs) (.obj args') →
    (Written.obj pairs).levels ≤ 100 → (Written.obj pairs).integerDigits ≤ 4300 →
      ds = [] ∧ args = args'
  /-- Otherwise there is one report, and there are no arguments. -/
  reported : ds ≠ [] → (∃ d, ds = [d]) ∧ args = []

/-- **Arguments are JSON objects behind escapes**: only those are decoded, and all of them are that
lie within the limits. Any other text is reported once. -/
theorem decodeArguments_strict (raw : Text) (hraw : raw ≠ []) :
    ∃ args ds, DecodedStrictly raw args ds := by
  refine ⟨_, _, decodedTo raw, ?_, fun _ _ => Arguments.Encodes.unique, ?_, ?_⟩
  · intro hnone
    cases h : Arguments.decode (some raw) with
    | ok args =>
      rw [Arguments.orNone, h]
      exact Arguments.encodes_of_decode hraw h
    | error fault =>
      rw [Arguments.diagnostic?, h] at hnone
      cases hnone
  · intro text pairs args' htext hspells hdenotes hlevels hdigits
    have hdepth : (100 : Nat) ≤ strict.depth := by decide
    have h := Arguments.decode_of_spells hraw htext hspells hdenotes (hlevels.trans hdepth) hdigits
    rw [Arguments.diagnostic?, Arguments.orNone, h]
    exact ⟨rfl, rfl⟩
  · intro hsome
    cases h : Arguments.diagnostic? (some raw) with
    | none =>
      rw [h] at hsome
      exact absurd rfl hsome
    | some d => exact ⟨⟨d, rfl⟩, Arguments.orNone_of_reported h⟩

/-- An object with one member, every mark of it escaped. -/
theorem escaped_object_strict : ("%7B%22a%22%3A1%7D" : Text) ≠ []
    ∧ ∃ args ds, DecodedStrictly "%7B%22a%22%3A1%7D" args ds :=
  have hraw : ("%7B%22a%22%3A1%7D" : Text) ≠ [] := by decide
  ⟨hraw, decodeArguments_strict _ hraw⟩

end Fragment

end Deeplink

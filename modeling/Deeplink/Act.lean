import Deeplink.Signal

/-!
# Acts

An act is a piece of work on a state that nothing can interrupt.

- `Outcome`: how an act ends, the state it leaves, and its signals in order.
- `Act`: a function from states to outcomes, with the operations of a monad; a failure
  ends an act, and what it did before stays done.
- `Act.attempt`: an act that never fails, with the failure as its result.
- `Act.focus`: an act on a part of the state.
-/

namespace Deeplink

/-- How an act ends: its result, the state it leaves, and what it shows. -/
structure Outcome (σ α : Type) where
  result : Except Failure α
  state : σ
  trace : List Signal

/-- An uninterrupted piece of work. -/
def Act (σ α : Type) := σ → Outcome σ α

namespace Act

variable {σ τ α β : Type}

/-! ## The monad -/

/-- Ends with the value. -/
def pure (a : α) : Act σ α := fun s => ⟨.ok a, s, []⟩

/-- One act after the other; the second does not happen if the first fails. -/
def bind (x : Act σ α) (f : α → Act σ β) : Act σ β := fun s =>
  let first := x s
  match first.result with
  | .error e => ⟨.error e, first.state, first.trace⟩
  | .ok a =>
    let second := f a first.state
    ⟨second.result, second.state, first.trace ++ second.trace⟩

instance : Monad (Act σ) where
  pure := pure
  bind := bind

/-! ## Operations -/

/-- Ends with a failure. -/
def fail (e : Failure) : Act σ α := fun s => ⟨.error e, s, []⟩

/-- Ends as the value says. -/
def ofExcept (x : Except Failure α) : Act σ α := fun s => ⟨x, s, []⟩

/-- The state. -/
def get : Act σ σ := fun s => ⟨.ok s, s, []⟩

/-- Changes the state. -/
def modify (f : σ → σ) : Act σ Unit := fun s => ⟨.ok (), f s, []⟩

/-- Shows a signal. -/
def emit (x : Signal) : Act σ Unit := fun s => ⟨.ok (), s, [x]⟩

/-- Never fails: a failure becomes the result. -/
def attempt (x : Act σ α) : Act σ (Except Failure α) := fun s =>
  let o := x s
  ⟨.ok o.result, o.state, o.trace⟩

/-- Works on a part of the state. -/
def focus (part : τ → σ) (put : σ → τ → τ) (x : Act σ α) : Act τ α := fun t =>
  let o := x (part t)
  ⟨o.result, put o.state t, o.trace⟩

end Act

end Deeplink

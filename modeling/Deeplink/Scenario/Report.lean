import Deeplink.Scenario.Step

/-!
# Reports of scenarios

- `Scenario.Report`: what a step has led to.
- `Scenario.takeAll`: steps that are reported together.
- `Scenario.play`: all reports of a scenario. A history of routes that has been answered is not a
  copy: it is reported as it is in the end.
-/

namespace Deeplink.Scenario

/-- What a step has led to: its answer, its signals, and the commands that are pending then. -/
structure Report where
  answer : Except Failure Answer
  trace : List Signal
  pending : List Command

/-- The commands that are pending in a state. -/
def State.pending (s : State) : List Command := s.server.app.desk.pending

/-- The history of routes in a state. -/
def State.history (s : State) : List Text := s.server.app.desk.host.routes.history

/-- Steps one after the other; the answer is that to the last one. -/
def takeAll (setting : Setting) : List Step → Act State Answer
  | [] => pure .nothing
  | [step] => take setting step
  | step :: rest => do
    let _ ← take setting step
    takeAll setting rest

/-- The reports of groups of steps, and the state after the last one. -/
def reports (setting : Setting) : List (List Step) → State → List Report × State
  | [], s => ([], s)
  | steps :: rest, s =>
    let o := takeAll setting steps s
    let (more, last) := reports setting rest o.state
    (⟨o.result, o.trace, o.state.pending⟩ :: more, last)

/-- An answer with the history that it refers to. -/
def Answer.withHistory (history : List Text) : Answer → Answer
  | .routes current _ => .routes current history
  | a => a

/-- A report with the history that its answer refers to. -/
def Report.withHistory (history : List Text) (r : Report) : Report :=
  { r with answer := r.answer.map (Answer.withHistory history) }

/-- The reports of groups of steps. -/
def play (setting : Setting) (steps : List (List Step)) (s : State) : List Report :=
  let (all, last) := reports setting steps s
  all.map (Report.withHistory last.history)

end Deeplink.Scenario

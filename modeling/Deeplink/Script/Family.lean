import Deeplink.Script

/-!
# Families of scripts

- `ScriptedFamily`: the scripts of the commands of one method, and which of them are safe.
- `ScriptedFamily.toFamily`: how they are run and checked. The check sees the safe commands as
  they are at the time.
- `ScriptedFamily.table`: the table of a list of families.
-/

namespace Deeplink

/-- A family whose runners are scripts, by the names of its commands. The commands that have
none of their own share one. -/
structure ScriptedFamily where
  method : Text
  safety : Safety
  runners : List (Text × Script)
  otherwise : Script

namespace ScriptedFamily

/-- The script of a command. -/
def script (f : ScriptedFamily) (name : Text) : Script :=
  { (f.runners.lookup name).getD f.otherwise with label := [f.method, name] }

/-- Runs a command. -/
def run (call : Host.Call Script Memory) (f : ScriptedFamily) (name : Text) (args : Args) :
    Task (Desk Stage) Json :=
  call (f.script name) args

/-- Checks a command, as the safe commands are at the time. -/
def isSafe (f : ScriptedFamily) (name : Text) : Act Stage Bool := do
  Action.tell (.checked f.method name)
  match (← Act.get).memory.lookup f.method with
  | none => return true
  | some safety => safety.check name

def toFamily (call : Host.Call Script Memory) (f : ScriptedFamily) : Family Stage :=
  { run := f.run call
    isSafe := f.isSafe }

/-- The table of a list of families. -/
def table (call : Host.Call Script Memory) (fs : List ScriptedFamily) : Table Stage :=
  fs.map fun f => (f.method, f.toFamily call)

/-- The safe commands that a list of families begins with. -/
def memory (fs : List ScriptedFamily) : Memory := fs.map fun f => (f.method, f.safety)

end ScriptedFamily

end Deeplink

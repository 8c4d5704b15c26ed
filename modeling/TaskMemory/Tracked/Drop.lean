import TaskMemory.Environment
import TaskMemory.Fault

/-!
Dropping tracked values. A bomb raises a fault when it is dropped, unless a fault is already under
way: then its drop is only recorded. When the drop of one value in a row raises a fault, the
others are dropped all the same.
-/
namespace TaskMemory.Tracked

/-- The fault that the end of a drop raises. `unwinding` says that a fault is already under way. -/
def detonate (v : Tracked) (unwinding : Bool) : Option Fault :=
  if v.bomb && !unwinding then some (.bomb v.id) else none

def drop (unwinding : Bool) (v : Tracked) (env : Environment) : Option Fault × Environment :=
  (v.detonate unwinding, env.noteDrop v.id)

/-- Drop values in order; the first fault raised is the outcome. -/
def dropAll (unwinding : Bool) : List Tracked → Environment → Option Fault × Environment
  | [], env => (none, env)
  | v :: rest, env =>
    match v.drop unwinding env with
    | (some fault, env) => (some fault, (dropAll true rest env).2)
    | (none, env) => dropAll unwinding rest env

end TaskMemory.Tracked

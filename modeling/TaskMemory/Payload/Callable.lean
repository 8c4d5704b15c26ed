import TaskMemory.Tracked.Drop

/-!
Callables: pieces of work together with the values bound to them. A callable is consumed once, by
running it or by dropping it unrun. To its payload it is no more than the room that its values take
up, what it does when it is run, and what becomes of its values if it is not. While it runs it may
turn to its own payload, so its work is told up to each such turn.
-/
namespace TaskMemory

/-- Work, step by step. -/
inductive Routine where
  | done
  /-- Do something. A fault ends the work; otherwise it goes on as the environment has it then. -/
  | act (deed : Environment → Option Fault × Environment) (next : Environment → Routine)
  /-- Ask the own payload whether it is spent. -/
  | ask (next : Bool → Routine)
  /-- Ask the own payload for another run. -/
  | invoke (next : Bool → Routine)

/-- Work to the end or to a fault. `spent` says whether the own payload counts as spent, in which
case it refuses another run. -/
def Routine.run (spent : Bool) : Routine → Environment → Option Fault × Environment
  | .done, env => (none, env)
  | .act deed next, env =>
    match deed env with
    | (some fault, env) => (some fault, env)
    | (none, env) => (next env).run spent env
  | .ask next, env => (next spent).run spent env
  | .invoke next, env => (next !spent).run spent env

structure Callable where
  /-- The layout of the values bound to it. -/
  captured : Layout
  work : Routine
  /-- Drop it unrun. The flag says that a fault is already under way. -/
  drop : Bool → Environment → Option Fault × Environment

namespace Callable

def run (c : Callable) (spent : Bool) (env : Environment) : Option Fault × Environment :=
  c.work.run spent env

/-- The layout of so many words. -/
def words (n : Nat) : Layout := ⟨8 * n, 8⟩

def nothing : Layout := ⟨0, 1⟩

/-- A callable that writes lines, fails if it is to, and drops the values that it owns, which it
also does if it is dropped unrun. The fault is the first one raised. -/
def writing (captured : Layout) (lines : List String) (failure : Option Fault)
    (owned : List Tracked) : Callable where
  captured := captured
  work := .act (fun env =>
      match Tracked.dropAll failure.isSome owned (lines.foldl Environment.write env) with
      | (dropped, env) => (failure.or dropped, env))
    fun _ => .done
  drop unwinding := Tracked.dropAll unwinding owned

def idle : Callable := writing nothing [] none []

/-- Write the number of the run. -/
def note (n : UInt64) : Callable := writing (words 1) [s!"run {n}"] none []

def noteText (text : String) : Callable := writing (words 3) [text] none []

def noteAll (numbers : List UInt64) : Callable :=
  writing (words numbers.length) ["args " ++ Text.list (numbers.map toString)] none []

def noteMixed (a : UInt8) (b : UInt16) (c : UInt32) (d : UInt64) : Callable :=
  writing (words 2) [s!"mixed {a} {b} {c} {d}"] none []

def noteBytes (n : UInt8) (flag : Bool) : Callable :=
  writing ⟨2, 1⟩ [s!"bytes {n} {Text.bool flag}"] none []

/-- Write the product of a weight and a count. -/
def hit (weight times : UInt64) : Callable := writing (words 3) [s!"hit {weight * times}"] none []

/-- Write a reading of a gauge. A gauge writes a double reading as two single ones, unless it is a
scaled one, which writes a hundredfold reading instead. -/
def gauge (scaled double : Bool) (reading : UInt64) : Callable :=
  let lines := match scaled, double with
    | false, false => [s!"plain {reading}"]
    | false, true => [s!"plain {reading}", s!"plain {reading}"]
    | true, false => [s!"scaled {reading}"]
    | true, true => [s!"scaled {reading * 100}"]
  writing (words 3) lines none []

/-- Write the sum of sixteen copies of a number. -/
def sum (n : UInt64) : Callable := writing (words 16) [s!"sum {16 * n}"] none []

/-- Ask the own payload whether it is spent, and for another run. -/
def reenter : Callable where
  captured := words 1
  work := .ask fun spent => .invoke fun ran =>
    .act (fun env => (none, env.write s!"inner {Text.bool spent} {Text.bool ran}")) fun _ => .done
  drop _ env := (none, env)

/-- Write the identity of a tracked value and drop it. -/
def own (v : Tracked) : Callable := writing (words 2) [s!"own {v.id}"] none [v]

def ownTwo (first second : Tracked) : Callable :=
  writing (words 4) [s!"own {first.id} {second.id}"] none [first, second]

/-- Raise a fault with a fixed text. -/
def fail (text : String) : Callable := writing nothing [] (some (.raised text)) []

/-- Raise a fault with a text of its own. -/
def failText (text : String) : Callable := writing (words 3) [] (some (.raised text)) []

def failWordless : Callable := writing nothing [] (some .wordless) []

/-- Raise a fault that carries a bomb. -/
def failCarrying (id : UInt64) : Callable := writing (words 1) [] (some (.carrying ⟨id, true⟩)) []

/-- Write the number of the run, then raise a fault. -/
def noteFail (n : UInt64) : Callable :=
  writing (words 1) [s!"run {n}"] (some (.raised s!"after {n}")) []

/-- Raise a fault, and drop a tracked value on the way. -/
def ownFail (v : Tracked) : Callable := writing (words 2) [] (some (.raised "with captures")) [v]

end Callable
end TaskMemory

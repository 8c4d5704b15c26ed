import TaskMemory.Bulletin
import TaskMemory.Payload.Basic

/-!
A client of a payload.
-/
namespace TaskMemory.Payload

inductive Request where
  | invoke
  | invokeParallel
  | askSpent
  | askSize
  | describe
  deriving DecidableEq

inductive Answer where
  | truth (yes : Bool)
  | count (n : Nat)
  | description (text : String)
  | broken (fault : Fault)

def threads : Nat := 8

/-- Invoke a payload so many times; how many invocations ran the callable. -/
def invokeAll (p : Payload) (env : Environment) : Nat → Nat × Payload × Environment
  | 0 => (0, p, env)
  | n + 1 =>
    match p.invoke env with
    | (ran, p, env) =>
      match p.invokeAll env n with
      | (count, p, env) => (count + (if ran matches .ok true then 1 else 0), p, env)

/-- Serve one request. The events of other threads are not heard. -/
def serve (p : Payload) (env : Environment) : Request → Answer × Payload × Environment
  | .invoke =>
    match p.invoke env with
    | (.ok ran, p, env) => (.truth ran, p, env)
    | (.error fault, p, env) => (.broken fault, p, env)
  | .invokeParallel =>
    match p.invokeAll env threads with
    | (count, p, after) => (.count count, p, Environment.unheard env after)
  | .askSpent => (.truth p.spent, p, env)
  | .askSize => (.count p.block.size, p, env)
  | .describe => (.description p.text, p, env)

/-- Serve requests in order; each answer comes with a bulletin. -/
def run (p : Payload) (env : Environment) (seen : Mark) :
    List Request → List (Answer × Bulletin) × Payload × Environment
  | [] => ([], p, env)
  | request :: rest =>
    match p.serve env request with
    | (answer, p, env) =>
      match p.run env env.mark rest with
      | (reports, last) => ((answer, env.bulletin seen) :: reports, last)

end TaskMemory.Payload

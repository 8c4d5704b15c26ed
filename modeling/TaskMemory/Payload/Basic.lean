import TaskMemory.Payload.Callable

/-!
Payloads: callables in blocks of their own that run at most once. The first `invoke` claims the
callable; whatever comes of the run, the payload is spent from then on, and faults of the callable
end in `invoke`. A payload that was never invoked drops its callable unrun.
-/
namespace TaskMemory

/-- Let go of a fault that has been stopped. A value that it carries is dropped, which may raise
another one. -/
def Fault.discard (fault : Fault) (env : Environment) : Option Fault × Environment :=
  match fault with
  | .carrying v => v.drop false env
  | _ => (none, env)

structure Payload where
  callable : Callable
  /-- Whether an invocation has claimed the callable. -/
  spent : Bool := false

namespace Payload

/-- The part of a block that describes the callable. -/
def header : Layout := ⟨16, 8⟩

def block (p : Payload) : Layout := header.followedBy p.callable.captured

theorem block_size_ne_zero (p : Payload) : p.block.size ≠ 0 :=
  Nat.ne_of_gt (Nat.lt_of_lt_of_le (by decide : 0 < header.size) (Layout.le_size_followedBy ..))

def create (c : Callable) (env : Environment) : Payload × Environment :=
  let p : Payload := { callable := c }
  (p, env.allocate p.block)

/-- Claim the callable: whether this claim is the first one. -/
def claim (p : Payload) : Bool × Payload := (!p.spent, { p with spent := true })

/-- Run the callable if nobody has. The answer says whether this invocation ran it. A fault of the
callable is reported and discarded; the answer is a fault only if discarding it raises one. -/
def invoke (p : Payload) (env : Environment) : Except Fault Bool × Payload × Environment :=
  match p.claim with
  | (false, p) => (.ok false, p, env)
  | (true, p) =>
    match p.callable.run p.spent env with
    | (none, env) => (.ok true, p, env)
    | (some fault, env) =>
      match fault.discard (env.raise (.payloadFailed fault.message p.block.size)) with
      | (none, env) => (.ok true, p, env)
      | (some fault, env) => (.error fault, p, env)

/-- Drop a payload: its callable if it was never run, then its block. If dropping the callable
raises a fault, the block is not given back. -/
def drop (p : Payload) (unwinding : Bool) (env : Environment) : Option Fault × Environment :=
  match if p.spent then (none, env) else p.callable.drop unwinding env with
  | (some fault, env) => (some fault, env)
  | (none, env) => (none, env.release p.block)

def text (p : Payload) : String :=
  Text.openRecord "Payload" [("bytes", toString p.block.size), ("spent", Text.bool p.spent)]

end Payload
end TaskMemory

import TaskMemory.Contention.Tally
import TaskMemory.Pool.Host

/-!
The churn workload: threads construct tasks in a shared pool, hold on to a window of them, and
destroy one whenever the window is exceeded. A thread that finds the pool full gives up the task it
constructed last and tries again. Here the threads run one after the other.
-/
namespace TaskMemory

structure ChurnOptions where
  threads : Nat
  /-- The number of constructions of each thread. -/
  opsPerThread : Nat
  slabCapacity : UInt32
  maxSlabs : UInt32
  /-- The number of tasks that a thread holds on to. -/
  window : Nat
  deriving DecidableEq

/-- A task, which knows its number; the rest of its 64 bytes is filling. -/
structure Task where
  id : UInt64
  deriving DecidableEq

theorem Task.room_for_link : 4 ≤ (⟨64, 8⟩ : Layout).size := by decide

instance : Stored Task := Stored.plain Task ⟨64, 8⟩ false Task.room_for_link

/-- What a thread keeps: its tally, and the handles of its tasks. -/
structure Worker where
  tally : Tally := {}
  held : Array Handle := #[]

structure ChurnOutcome where
  tally : Tally
  slabs : Nat
  /-- The account of the pool's memory, after the pool is gone. -/
  ledger : Ledger

namespace Churn

/-- A pool of tasks in the hands of a thread. -/
abbrev Site := Host Task Worker

def discard (h : Handle) (w : Site) : Except Fault Site :=
  match w.remove h with
  | (.ok (), w) => .ok w
  | (.error fault, _) => .error fault

/-- Construct a task. While the pool is full, destroy the task constructed last and try again, so
many times at most; without a task of its own to give up a thread waits for the others. -/
def obtain (task : Task) : Nat → Site → Except Fault (Handle × Site)
  | 0, _ => .error .starved
  | attempts + 1, w =>
    match w.insert task with
    | (.ok h, w) => .ok (h, w)
    | (.error (.fault fault), _) => .error fault
    | (.error (.noSlot _), w) => do
      let tally ← w.state.tally.retry
      match w.state.held.back? with
      | none => obtain task attempts { w with state := { w.state with tally } }
      | some h =>
        obtain task attempts
          (← discard h { w with state := { tally, held := w.state.held.pop } })

/-- Remove an element; the last one moves to its position. -/
def swapRemove (held : Array Handle) (i : Nat) : Array Handle :=
  match held.back? with
  | none => held
  | some last => (held.setIfInBounds i last).pop

/-- Destroy a task if the window is exceeded; the number of the operation picks it. -/
def trim (window i : Nat) (w : Site) : Except Fault Site :=
  if window < w.state.held.size then
    let position := i % w.state.held.size
    match w.state.held[position]? with
    | none => .ok w
    | some h =>
      discard h { w with state := { w.state with held := swapRemove w.state.held position } }
  else .ok w

/-- An operation of a thread: construct a task, look at it, and keep to the window. `latency` says
how long the construction of a task takes. -/
def operate (latency : UInt64 → UInt64) (window : Nat) (id : UInt64) (i : Nat) (w : Site) :
    Except Fault Site := do
  let (h, w) ← obtain ⟨id⟩ (w.state.held.size + 1) w
  let tally ← w.state.tally.record (latency id)
  match w.get? h with
  | .error fault => .error fault
  | .ok none => .error (.wrongTask id none)
  | .ok (some task) =>
    if task.id = id then
      trim window i { w with state := { tally, held := w.state.held.push h } }
    else .error (.wrongTask id task.id)

def operations (latency : UInt64 → UInt64) (window first : Nat) :
    Nat → Nat → Site → Except Fault Site
  | 0, _, w => .ok w
  | remaining + 1, i, w =>
    match operate latency window (first + i).toUInt64 i w with
    | .error fault => .error fault
    | .ok w => operations latency window first remaining (i + 1) w

/-- The largest window for which a thread can set its handles aside. -/
def maxWindow : Nat := (1 <<< 63 - 1) / 4

/-- The work of a thread: its operations, then the end of what it holds. -/
def work (o : ChurnOptions) (latency : UInt64 → UInt64) (thread : Nat)
    (pool : Pool Task) (env : Environment) : Except Fault Site := do
  if maxWindow < o.window then throw .capacityOverflow
  let w ← operations latency o.window (thread * o.opsPerThread) o.opsPerThread 0 ⟨pool, env, {}⟩
  w.state.held.toList.foldlM (fun w h => discard h w) w

/-- Let the threads from number `thread` on work, and merge their tallies. A thread that broke off
breaks off the whole run. -/
def workAll (o : ChurnOptions) (latency : UInt64 → UInt64) :
    Nat → Nat → Tally → Pool Task → Environment → Except Fault (Tally × Pool Task × Environment)
  | 0, _, tally, pool, env => .ok (tally, pool, env)
  | remaining + 1, thread, tally, pool, env =>
    match work o latency thread pool env with
    | .error _ => .error .threadFailed
    | .ok w => do
      workAll o latency remaining (thread + 1) (← tally.merge w.state.tally) w.pool w.env

/-- Run the workload on a new pool over counted memory. -/
def run (o : ChurnOptions) (latency : UInt64 → UInt64) : Except Fault ChurnOutcome :=
  match Pool.create ⟨o.slabCapacity, .bounded o.maxSlabs⟩ with
  | .error e => .error (.invalidOptions e)
  | .ok pool => do
    let memory := (Resource.ofPolicy Policy.unlimited).counted
    let (tally, pool, env) ← workAll o latency o.threads 0 {} pool { resource := memory }
    let (_, after) := pool.dispose env
    return { tally, slabs := pool.slabCount, ledger := after.ledger?.getD {} }

end Churn
end TaskMemory

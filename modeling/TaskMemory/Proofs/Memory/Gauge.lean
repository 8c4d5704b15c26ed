import Mathlib.Algebra.BigOperators.Group.List.Basic
import Mathlib.Algebra.GroupWithZero.Nat
import TaskMemory.Memory.Resource
import TaskMemory.Proofs.Parallel

/-!
One counting layer under any number of threads. A call updates the counters one after the other,
each in a step of its own, and other calls may come in between. What the resource inside does for a
call is one step, since no counter shows it.
-/
namespace TaskMemory

/-- What the threads share: the counters of the layer, the resource inside, and the blocks that have
been handed out and not been given back yet. -/
structure Gauge where
  ledger : Ledger := {}
  inner : Resource
  out : List Layout := []

namespace Gauge

/-- The layer as a resource. -/
def resource (g : Gauge) : Resource := .counting g.ledger g.inner

inductive Request where
  | allocate (block : Layout)
  /-- Give back a block that has been handed out. -/
  | deallocate (block : Layout)

/-- A call under way, by the step that comes next. -/
inductive Call where
  /-- The resource inside is asked. -/
  | asking (block : Layout)
  | counting (block : Layout)
  /-- The bytes are added. -/
  | raising (block : Layout)
  /-- The peak is raised to the bytes that were out when those of the block had been added. -/
  | peaking (block : Layout) (live : Nat)
  | deducting (block : Layout)
  /-- The bytes are taken off. -/
  | lowering (block : Layout)
  /-- The block goes back to the resource inside. -/
  | returning (block : Layout)
  deriving DecidableEq

/-- What a step does. -/
inductive Act where
  | asked (block : Layout) (granted : Bool) (events : List Event)
  | counted
  | raised (size : Nat)
  | peaked (live : Nat)
  | deducted
  | lowered (size : Nat)
  | returned (block : Layout) (events : List Event)
  deriving DecidableEq

def Act.events : Act → List Event
  | .asked _ _ events | .returned _ events => events
  | _ => []

/-- The next step of a call: what it does, what is left of the call, and what it leaves. A block is
handed out when the call that obtained it ends. -/
def Call.advance (g : Gauge) : Call → Act × Option Call × Gauge
  | .asking block =>
    match g.inner.allocate block with
    | (granted, inner, events) =>
      (.asked block granted events, if granted then some (.counting block) else none,
        { g with inner })
  | .counting block =>
    (.counted, some (.raising block),
      { g with ledger := { g.ledger with allocations := g.ledger.allocations + 1 } })
  | .raising block =>
    let live := g.ledger.liveBytes + block.size
    (.raised block.size, some (.peaking block live),
      { g with ledger := { g.ledger with liveBytes := live } })
  | .peaking block live =>
    (.peaked live, none,
      { g with
        ledger := { g.ledger with peakBytes := max g.ledger.peakBytes live }
        out := block :: g.out })
  | .deducting block =>
    (.deducted, some (.lowering block),
      { g with ledger := { g.ledger with deallocations := g.ledger.deallocations + 1 } })
  | .lowering block =>
    (.lowered block.size, some (.returning block),
      { g with ledger := { g.ledger with liveBytes := g.ledger.liveBytes - block.size } })
  | .returning block =>
    match g.inner.deallocate block with
    | (inner, events) => (.returned block events, none, { g with inner })

/-- Anybody may ask for a block at any time; a block that is out is given back once. -/
def users : Rules Gauge Call Request Act where
  start
    | .allocate block, g => some (.asking block, g)
    | .deallocate block, g =>
      if block ∈ g.out then some (.deducting block, { g with out := g.out.erase block }) else none
  advance t g := some (t.advance g)

/-- A new layer that nobody has used. -/
def opening (inner : Resource) : Crowd Gauge Call := ⟨{ inner }, []⟩

/-- The moves of a call that runs to its end. -/
def alone (request : Request) : List (Move Request) :=
  .start request :: List.replicate 4 (.advance 0)

/-- A request that nobody interrupts does to the counters and to the resource inside what the layer
does as a resource, and raises the same events. -/
theorem run_allocate_alone (g : Gauge) (block : Layout) :
    let result := g.resource.allocate block
    let course := users.run ⟨g, []⟩ (alone (.allocate block))
    course.2.underway = [] ∧ course.2.shared.resource = result.2.1 ∧
      course.2.shared.out = (if result.1 then [block] else []) ++ g.out ∧
      course.1.flatMap Act.events = result.2.2 := by
  rcases hInner : g.inner.allocate block with ⟨_ | _, inner, events⟩
  · simp [alone, Rules.run, Rules.step, users, Call.advance, resource, Resource.allocate, hInner,
      Act.events]
  · simp [alone, Rules.run, Rules.step, users, Call.advance, resource, Resource.allocate, hInner,
      Act.events, Ledger.grant]

/-- A return that nobody interrupts is entered as a counting layer enters it. -/
theorem run_deallocate_alone (g : Gauge) {block : Layout} (hOut : block ∈ g.out) :
    let result := g.resource.deallocate block
    let course := users.run ⟨g, []⟩ (alone (.deallocate block))
    course.2.underway = [] ∧ course.2.shared.resource = result.1 ∧
      course.2.shared.out = g.out.erase block ∧ course.1.flatMap Act.events = result.2 := by
  rcases hInner : g.inner.deallocate block with ⟨inner, events⟩
  simp [alone, Rules.run, Rules.step, users, Call.advance, resource, Resource.deallocate, hInner,
    hOut, Act.events, Ledger.giveBack]

end Gauge
end TaskMemory

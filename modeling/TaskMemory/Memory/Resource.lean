import TaskMemory.Event
import TaskMemory.Memory.Ledger

/-!
Memory resources. A resource is the system's memory with any number of layers around it: a
counting layer keeps a ledger of what passes through it, a tracing layer raises an event for every
call. `allocate` and `deallocate` follow a request through the layers.
-/
namespace TaskMemory

/-- Which requests are granted. A request is judged by its number, by the bytes that are out, and
by the block that is asked for. -/
abbrev Policy := (request live : Nat) → Layout → Bool

namespace Policy

def addressSpace : Nat := 1 <<< 47

/-- Grant whatever fits the address space. A block is cut out of a stretch that is longer by its
alignment, so that an aligned address lies in it. -/
def unlimited : Policy := fun _ _ block => block.size + block.align < addressSpace

/-- Grant what fits the address space while no more than so many bytes are out. -/
def within (budget : Nat) : Policy := fun request live block =>
  unlimited request live block && live + block.size ≤ budget

end Policy

inductive Resource where
  /-- The system's memory under a policy, with the number of requests so far and the bytes out. -/
  | system (policy : Policy) (requests live : Nat)
  /-- Counts the granted and the returned blocks of the resource inside. -/
  | counting (ledger : Ledger) (inner : Resource)
  /-- Reports every request to the resource inside. -/
  | tracing (inner : Resource)

namespace Resource

/-- Ask for a block: whether it is granted, the resource afterwards, and the events raised on the
way. A refused request leaves every ledger alone. -/
def allocate : Resource → Layout → Bool × Resource × List Event
  | .system policy requests live, block =>
    if policy requests live block then
      (true, .system policy (requests + 1) (live + block.size), [])
    else (false, .system policy (requests + 1) live, [])
  | .counting ledger inner, block =>
    match inner.allocate block with
    | (true, inner, events) => (true, .counting (ledger.grant block.size) inner, events)
    | (false, inner, events) => (false, .counting ledger inner, events)
  | .tracing inner, block =>
    match inner.allocate block with
    | (granted, inner, events) => (granted, .tracing inner, events ++ [.allocated block])

/-- Return a block that was granted with the same layout. -/
def deallocate : Resource → Layout → Resource × List Event
  | .system policy requests live, block => (.system policy requests (live - block.size), [])
  | .counting ledger inner, block =>
    match inner.deallocate block with
    | (inner, events) => (.counting (ledger.giveBack block.size) inner, events)
  | .tracing inner, block =>
    match inner.deallocate block with
    | (inner, events) => (.tracing inner, .deallocated block :: events)

/-- The ledgers of the counting layers, from the outside in. -/
def ledgers : Resource → List Ledger
  | .system .. => []
  | .counting ledger inner => ledger :: inner.ledgers
  | .tracing inner => inner.ledgers

def ofPolicy (policy : Policy) : Resource := .system policy 0 0

def counted (r : Resource) : Resource := .counting {} r

def traced (r : Resource) : Resource := .tracing r

end Resource
end TaskMemory

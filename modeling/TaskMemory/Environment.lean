import TaskMemory.Memory.Resource

/-!
The environment of the components: the memory resource they allocate from, and the records that
their work leaves behind. The records only grow, so a reader who knows how much it has seen can
tell what is new.
-/
namespace TaskMemory

/-- What the components share: memory, and the records of what happened. -/
structure Environment where
  resource : Resource
  events : Array Event := #[]
  /-- The identities of the tracked values dropped, oldest first. -/
  drops : Array UInt64 := #[]
  /-- The lines written by callables, oldest first. -/
  log : Array String := #[]

namespace Environment

def raise (env : Environment) (event : Event) : Environment :=
  { env with events := env.events.push event }

def write (env : Environment) (line : String) : Environment :=
  { env with log := env.log.push line }

def noteDrop (env : Environment) (id : UInt64) : Environment :=
  { env with drops := env.drops.push id }

/-- Obtain a block that is known to be granted. A block of size zero has no bytes and does not
reach the resource. -/
def allocate (env : Environment) (block : Layout) : Environment :=
  if block.size = 0 then env
  else match env.resource.allocate block with
    | (_, resource, events) => { env with resource, events := env.events ++ events.toArray }

/-- Give a block back that `allocate` obtained with the same layout. -/
def release (env : Environment) (block : Layout) : Environment :=
  if block.size = 0 then env
  else match env.resource.deallocate block with
    | (resource, events) => { env with resource, events := env.events ++ events.toArray }

/-- The account of the outermost counting layer, if the resource has one. -/
def ledger? (env : Environment) : Option Ledger := env.resource.ledgers.head?

end Environment
end TaskMemory

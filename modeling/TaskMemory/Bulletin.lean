import TaskMemory.Environment

/-!
Reading the records of an environment piece by piece. A reader marks how much it has seen; a
bulletin holds the accounts as they stand and what has been recorded since the mark.
-/
namespace TaskMemory

/-- How many records of each kind a reader has seen. -/
structure Mark where
  drops : Nat := 0
  log : Nat := 0
  events : Nat := 0
  deriving DecidableEq

/-- The accounts of the counting layers, from the outside in, and the records that are new. -/
structure Bulletin where
  ledgers : List Ledger
  drops : Array UInt64
  log : Array String
  events : Array Event

namespace Environment

def mark (env : Environment) : Mark := ⟨env.drops.size, env.log.size, env.events.size⟩

def bulletin (env : Environment) (seen : Mark) : Bulletin where
  ledgers := env.resource.ledgers
  drops := env.drops.extract seen.drops env.drops.size
  log := env.log.extract seen.log env.log.size
  events := env.events.extract seen.events env.events.size

/-- Let something happen out of earshot: its events are not recorded. -/
def unheard (before after : Environment) : Environment := { after with events := before.events }

end Environment
end TaskMemory

import TaskMemory.Environment

/-!
A growable table whose storage comes from the environment. It starts without storage, doubles when
it is full, and moves its entries into the new block before it gives the old one back.
-/
namespace TaskMemory

/-- A table of entries and the number of entries its block has room for. -/
structure Table (α : Type) where
  items : Array α := #[]
  capacity : Nat := 0

namespace Table

variable {α : Type}

def size (t : Table α) : Nat := t.items.size

def get? (t : Table α) (i : Nat) : Option α := t.items[i]?

def modify (t : Table α) (i : Nat) (change : α → α) : Table α :=
  { t with items := t.items.modify i change }

/-- The capacity after a table of this capacity has grown. -/
def nextCapacity (capacity : Nat) : Nat := if capacity = 0 then 4 else capacity * 2

/-- Move to a block of the next capacity. The old block is given back only after the new one has
been obtained. -/
def grow (entry : Layout) (t : Table α) (env : Environment) : Table α × Environment :=
  let env := env.allocate (entry.array (nextCapacity t.capacity))
  let env := if t.capacity = 0 then env else env.release (entry.array t.capacity)
  ({ t with capacity := nextCapacity t.capacity }, env)

/-- Append an entry, growing first when the block is full. -/
def push (entry : Layout) (t : Table α) (a : α) (env : Environment) : Table α × Environment :=
  match if t.items.size = t.capacity then t.grow entry env else (t, env) with
  | (t, env) => ({ t with items := t.items.push a }, env)

def release (entry : Layout) (t : Table α) (env : Environment) : Environment :=
  if t.capacity = 0 then env else env.release (entry.array t.capacity)

/-- Drop the entries in order, then give the block back. -/
def dispose (entry : Layout) (drop : α → Environment → Environment) (t : Table α)
    (env : Environment) : Environment :=
  t.release entry (t.items.foldl (fun env a => drop a env) env)

end Table
end TaskMemory

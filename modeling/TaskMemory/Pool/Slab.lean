import TaskMemory.Pool.Stored

/-!
Slabs: blocks of slots with a free list. The list is threaded through the free slots themselves
and sorted by slot number: `unlink` takes the lowest free slot, `link` puts a slot back in its
place. A link stands in the first word of its slot, which is also where a value begins. Because the
list is sorted, `teardown` can walk it beside the slots and so tells the values from the free slots.
-/
namespace TaskMemory

/-- A slot. Its storage is the first word and what a value has left behind it. The two flags are not
part of the storage, and the pool does not act on them: they say whose the slot is. -/
structure Slot (α : Type) where
  /-- The link of a free slot, or the beginning of a value. -/
  word : UInt32
  /-- The value written last; what counts of its first word stands in `word`. -/
  value : Option α := none
  /-- A construction has the slot and has not put its value there yet. -/
  claimed : Bool := false
  /-- A construction has put a value there, and no destruction of it has begun. -/
  live : Bool := false

namespace Slot

variable {α : Type}

def noLink : UInt32 := 0xFFFFFFFF

def next (s : Slot α) : Option Nat := if s.word = noLink then none else some s.word.toNat

def linkTo (next : Option Nat) (s : Slot α) : Slot α :=
  { s with word := next.elim noLink Nat.toUInt32 }

def read? [Stored α] (s : Slot α) : Option α := s.value.map (Stored.withFirstWord s.word)

def write [Stored α] (v : α) (s : Slot α) : Slot α :=
  { s with word := Stored.firstWord v s.word, value := some v }

def claim (s : Slot α) : Slot α := { s with claimed := true }

def publish [Stored α] (v : α) (s : Slot α) : Slot α :=
  { s.write v with claimed := false, live := true }

def retire (s : Slot α) : Slot α := { s with live := false }

end Slot

structure Slab (α : Type) where
  slots : Array (Slot α)
  /-- The lowest free slot. -/
  head : Option Nat
  /-- The length of the free list. -/
  freeCount : Nat

namespace Slab

variable {α : Type}

/-- A slab of `capacity` free slots, each linked to the next. -/
def fresh (capacity : Nat) : Slab α where
  slots := Array.ofFn fun i : Fin capacity =>
    Slot.linkTo (if i.val + 1 = capacity then none else some (i.val + 1)) { word := 0 }
  head := if capacity = 0 then none else some 0
  freeCount := capacity

def nextFree (s : Slab α) (i : Nat) : Option Nat := s.slots[i]?.bind Slot.next

/-- Change a slot; the free list is not looked at. -/
def update (s : Slab α) (i : Nat) (change : Slot α → Slot α) : Slab α :=
  { s with slots := s.slots.modify i change }

/-- Take the lowest free slot off the list, for a construction. -/
def unlink (s : Slab α) : Slab α :=
  match s.head with
  | none => s
  | some i => { s.update i Slot.claim with head := s.nextFree i, freeCount := s.freeCount - 1 }

/-- Walk the free list from `after` up to the first slot that is not below `i`; the slot before it
and that slot. The number bounds the steps. -/
def seek (s : Slab α) (i : Nat) : Nat → Option Nat → Option Nat → Option Nat × Option Nat
  | 0, before, after => (before, after)
  | steps + 1, before, after =>
    match after with
    | none => (before, none)
    | some j => if j < i then s.seek i steps (some j) (s.nextFree j) else (before, some j)

def neighbours (s : Slab α) (i : Nat) : Option Nat × Option Nat :=
  s.seek i s.slots.size none s.head

def isFree (s : Slab α) (i : Nat) : Bool := (s.neighbours i).2 = some i

/-- Put slot `i`, which is not on the free list, back in its place. -/
def link (s : Slab α) (i : Nat) : Slab α :=
  match s.neighbours i with
  | (before, after) =>
    let linked := s.update i fun slot => { slot.linkTo after with claimed := false }
    match before with
    | none => { linked with head := some i, freeCount := s.freeCount + 1 }
    | some j => { linked.update j (Slot.linkTo (some i)) with freeCount := s.freeCount + 1 }

variable [Stored α]

/-- Drop the values of slots from number `i` on; `next` is the next free slot. The first fault ends
the walk. At its end no free slot may be left, which is looked at only where there is something to
drop. -/
def dropValues : List (Slot α) → Nat → Option Nat → Environment → Option Fault × Environment
  | [], _, none, env => (none, env)
  | [], _, some left, env => (if Stored.needsDrop α then some (.unsorted left) else none, env)
  | slot :: rest, i, next, env =>
    if next = some i then dropValues rest (i + 1) slot.next env
    else match slot.read? with
      | none => dropValues rest (i + 1) next env
      | some v =>
        match Stored.drop false v env with
        | (some fault, _, env) => (some fault, env)
        | (none, _, env) => dropValues rest (i + 1) next env

/-- Drop the values in slot order and give the block back. After a fault the remaining values are
not dropped and the block is not given back. -/
def teardown (storage : Layout) (s : Slab α) (env : Environment) : Option Fault × Environment :=
  match dropValues s.slots.toList 0 s.head env with
  | (some fault, env) => (some fault, env)
  | (none, env) => (none, env.release storage)

end Slab
end TaskMemory

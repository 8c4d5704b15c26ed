import TaskMemory.Config.Options
import TaskMemory.Memory.Table
import TaskMemory.Pool.Slab

/-!
Pools: growing collections of slabs whose values are named by handles. Slabs are appended and
never removed; slots are reused, the lowest one of the first slab that has any first. This module
holds the pool and the steps on it that run no user code.
-/
namespace TaskMemory

/-- Where a slot lies: its slab and its number in that slab. -/
structure Place where
  slab : Nat
  offset : Nat
  deriving DecidableEq

inductive Refusal where
  | noSlot (cause : PoolError)
  /-- A fault broke the construction off. -/
  | fault (cause : Fault)
  deriving DecidableEq

def Refusal.isFault : Refusal → Bool
  | .noSlot _ => false
  | .fault _ => true

structure Pool (α : Type) where
  codec : Codec
  limit : SlabLimit
  /-- The slabs, in the order of their creation. -/
  directory : Table (Slab α) := {}
  /-- The number of values, one counted for as long as its slot has not been given back. -/
  live : UInt64 := 0

namespace Pool

variable {α : Type}

def create (o : PoolOptions) : Except ConfigError (Pool α) :=
  o.validate.map fun codec => { codec, limit := o.limit }

def slabCount (p : Pool α) : Nat := p.directory.size

def slabCapacity (p : Pool α) : Nat := p.codec.slabCapacity.toNat

def capacity (p : Pool α) : Nat := p.slabCount * p.slabCapacity

def freeSlots (p : Pool α) : Nat := p.directory.items.foldl (fun n slab => n + slab.freeCount) 0

def atLimit (p : Pool α) : Bool := p.codec.maxSlabs.toNat ≤ p.slabCount

/-- The error of a pool that is full and at its limit. -/
def exhausted (p : Pool α) : PoolError := .exhausted p.codec.maxSlabs

/-- The place a handle names; the slab need not exist. -/
def place (p : Pool α) (h : Handle) : Place :=
  ⟨(p.codec.slab h).toNat, (p.codec.offset h).toNat⟩

def handle (p : Pool α) (site : Place) : Handle :=
  p.codec.encode site.slab.toUInt32 site.offset.toUInt32

def hasSlab (p : Pool α) (h : Handle) : Bool := (p.place h).slab < p.slabCount

/-- The fault of using a handle whose slab does not exist. -/
def missingSlab (p : Pool α) (h : Handle) : Fault := .missingSlab h (p.codec.slab h) p.slabCount

def slot? (p : Pool α) (site : Place) : Option (Slot α) :=
  (p.directory.get? site.slab).bind fun slab => slab.slots[site.offset]?

/-- The value at a place, if it can be used. -/
def value? [Stored α] (p : Pool α) (site : Place) : Option α :=
  (p.slot? site).bind fun slot => if slot.live then slot.read? else none

def mapSlab (p : Pool α) (i : Nat) (change : Slab α → Slab α) : Pool α :=
  { p with directory := p.directory.modify i change }

/-- Change the slot at a place; no free list is looked at. -/
def update (p : Pool α) (site : Place) (change : Slot α → Slot α) : Pool α :=
  p.mapSlab site.slab (·.update site.offset change)

/-- The place that is used next: the lowest free slot of the first slab that has any. -/
def vacancy? (p : Pool α) : Option Place :=
  (p.directory.items.findIdx? (·.head.isSome)).bind fun i =>
    (p.directory.items[i]?.bind Slab.head).map (⟨i, ·⟩)

/-- Take the lowest free slot of a slab off its free list. The list is shortened first and its count
lowered after that, so a list with more slots than its count says loses one all the same, and the
count that would fall below zero is a fault. -/
def claim (p : Pool α) (site : Place) : Except Refusal Place × Pool α :=
  (if (p.directory.get? site.slab).any (·.freeCount = 0) then .error (.fault .subtractOverflow)
    else .ok site,
    p.mapSlab site.slab Slab.unlink)

/-- Put a claimed slot back on its free list, where its value has not come into being. -/
def reclaim (p : Pool α) (site : Place) : Pool α := p.mapSlab site.slab (·.link site.offset)

def isFree (p : Pool α) (site : Place) : Bool :=
  (p.directory.get? site.slab).any (·.isFree site.offset)

/-- Put a slot back on its free list, where its value is gone. -/
def recycle (p : Pool α) (site : Place) : Except Fault (Pool α) :=
  if p.isFree site then .error (.releasedTwice site.offset)
  else
    let live := p.live - 1
    .ok { p.reclaim site with live }

def publish [Stored α] (p : Pool α) (site : Place) (v : α) : Pool α :=
  let live := p.live + 1
  { p.update site (Slot.publish v) with live }

def text (p : Pool α) : String :=
  Text.openRecord "PoolAllocator" [("codec", p.codec.text), ("slabs", toString p.slabCount),
    ("live", toString p.live)]

def directoryEntry : Layout := ⟨24, 8⟩

variable [Stored α]

def slabStorage (p : Pool α) : Layout := (Stored.slot α).array p.slabCapacity

/-- Come up with a slot once the pool has been found full below its limit. The block of a new slab
is obtained first. If a slot has become free or the limit has been reached by then, the block is
given back; otherwise it becomes a slab, and its first slot is the one. -/
def extend (p : Pool α) (env : Environment) : Except Refusal Place × Pool α × Environment :=
  let storage := p.slabStorage
  let env := env.allocate storage
  match p.vacancy? with
  | some found =>
    match p.claim found with
    | (.ok site, p) => (.ok site, p, env.release storage)
    | (.error refusal, p) => (.error refusal, p, env)
  | none =>
    if p.atLimit then
      (.error (.noSlot p.exhausted), p,
        (env.release storage).raise (.poolExhausted p.codec.maxSlabs))
    else
      let index := p.slabCount
      let created := Event.slabCreated index.toUInt32 p.codec.slabCapacity storage.size
      match p.directory.push directoryEntry (Slab.fresh p.slabCapacity).unlink env with
      | (directory, env) => (.ok ⟨index, 0⟩, { p with directory }, env.raise created)

/-- Tear slabs down in order, up to the first fault. -/
def teardownSlabs (storage : Layout) : List (Slab α) → Environment → Option Fault × Environment
  | [], env => (none, env)
  | slab :: rest, env =>
    match slab.teardown storage env with
    | (some fault, env) => (some fault, env)
    | (none, env) => teardownSlabs storage rest env

/-- Drop the values, give the slabs back, then the directory. A fault leaves the slab in which it
happened and all later ones as they are; the directory is given back all the same. -/
def dispose (p : Pool α) (env : Environment) : Option Fault × Environment :=
  match teardownSlabs p.slabStorage p.directory.items.toList env with
  | (fault, env) => (fault, p.directory.release directoryEntry env)

end Pool
end TaskMemory

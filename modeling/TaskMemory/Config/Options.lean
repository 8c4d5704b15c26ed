import TaskMemory.Handle.Codec

/-!
Options of a pool and of a ring. They are plain values; `validate` says whether a component can be
built from them.
-/
namespace TaskMemory

/-- The display text of whatever memory resource an option names. -/
def resourceText : String := "dyn MemoryResource"

/-- Options of a pool: slots a slab, and how many slabs. -/
structure PoolOptions where
  slabCapacity : UInt32 := 128
  limit : SlabLimit := .unbounded
  deriving DecidableEq

namespace PoolOptions

def maxSlabs (o : PoolOptions) (slabs : UInt32) : PoolOptions := { o with limit := .bounded slabs }

def slabLimit (o : PoolOptions) (limit : SlabLimit) : PoolOptions := { o with limit }

/-- The handle layout of a pool with these options, or why there is none. -/
def validate (o : PoolOptions) : Except ConfigError Codec := Codec.make o.slabCapacity o.limit

def text (o : PoolOptions) : String :=
  Text.record "PoolOptions" [("slab_capacity", toString o.slabCapacity),
    ("max_slabs", o.limit.text), ("resource", resourceText)]

end PoolOptions

structure RingOptions where
  capacity : UInt32
  deriving DecidableEq

namespace RingOptions

/-- A ring holds at least one element and at most `maxRingCapacity`. -/
def validate (o : RingOptions) : Except ConfigError Unit :=
  if o.capacity = 0 then .error .zeroRingCapacity
  else if maxRingCapacity < o.capacity then .error (.ringCapacityTooLarge o.capacity)
  else .ok ()

def text (o : RingOptions) : String :=
  Text.record "RingOptions" [("capacity", toString o.capacity), ("resource", resourceText)]

end RingOptions
end TaskMemory

import TaskMemory.Text.Record

/-!
Why options are refused. Each cause is a constructor that keeps the offending numbers; the wording
is in `message`, the structure in `text`.
-/
namespace TaskMemory

/-- The largest element count of a ring. Its cursors count to twice the capacity, which then still
leaves room in 32 bits for the sum of a cursor and the full cycle. -/
def maxRingCapacity : UInt32 := 1073741824

/-- A reason to refuse the options of a pool or of a ring. -/
inductive ConfigError where
  | zeroSlabCapacity
  | slabCapacityNotPowerOfTwo (capacity : UInt32)
  | zeroSlabLimit
  /-- The limit needs more index bits than the offset leaves. -/
  | slabLimitTooLarge (maxSlabs : UInt32) (addressable : UInt64)
  | zeroRingCapacity
  | ringCapacityTooLarge (capacity : UInt32)
  deriving DecidableEq

namespace ConfigError

def kind : ConfigError → String
  | .zeroSlabCapacity => "ZeroSlabCapacity"
  | .slabCapacityNotPowerOfTwo _ => "SlabCapacityNotPowerOfTwo"
  | .zeroSlabLimit => "ZeroSlabLimit"
  | .slabLimitTooLarge .. => "SlabLimitTooLarge"
  | .zeroRingCapacity => "ZeroRingCapacity"
  | .ringCapacityTooLarge _ => "RingCapacityTooLarge"

def message : ConfigError → String
  | .zeroSlabCapacity => "slab capacity must be non-zero"
  | .slabCapacityNotPowerOfTwo capacity => s!"slab capacity {capacity} is not a power of two"
  | .zeroSlabLimit => "slab limit must be non-zero"
  | .slabLimitTooLarge maxSlabs addressable =>
    s!"slab limit {maxSlabs} exceeds the {addressable} slabs a handle can address"
  | .zeroRingCapacity => "ring buffer capacity must be non-zero"
  | .ringCapacityTooLarge capacity =>
    s!"ring buffer capacity {capacity} exceeds the maximum of {maxRingCapacity}"

/-- The cause with its numbers, as a value is displayed. -/
def text (e : ConfigError) : String :=
  match e with
  | .slabCapacityNotPowerOfTwo n | .ringCapacityTooLarge n => s!"{e.kind}({n})"
  | .slabLimitTooLarge maxSlabs addressable =>
    Text.record e.kind [("max_slabs", toString maxSlabs), ("addressable", toString addressable)]
  | _ => e.kind

end ConfigError

/-- Why a pool did not come up with a slot: it is full, or it could not be set up at all. -/
inductive PoolError where
  /-- Every slab is full and no further slab may be created. -/
  | exhausted (maxSlabs : UInt64)
  | config (cause : ConfigError)
  deriving DecidableEq

namespace PoolError

/-- The error as a sentence; a configuration error speaks for itself. -/
def message : PoolError → String
  | .exhausted maxSlabs => s!"pool exhausted: all {maxSlabs} slabs are full"
  | .config cause => cause.message

/-- The error with its numbers, as a value is displayed. -/
def text : PoolError → String
  | .exhausted maxSlabs => Text.record "Exhausted" [("max_slabs", toString maxSlabs)]
  | .config cause => s!"Config({cause.text})"

end PoolError
end TaskMemory

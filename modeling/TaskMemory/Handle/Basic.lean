/-!
Handles: opaque 32-bit references to pool objects. A handle carries no generation count, so it
means nothing once its slot has been given back.
-/
namespace TaskMemory

/-- A reference to an object of a pool. Only the pool that issued it can say what it refers to. -/
structure Handle where
  raw : UInt32
  deriving DecidableEq, Inhabited

namespace Handle

def bits : Nat := 32

instance : Ord Handle where
  compare a b := compare a.raw.toNat b.raw.toNat

def text (h : Handle) : String := s!"Handle({h.raw})"

def sortedDistinct (handles : List Handle) : List Handle :=
  (handles.mergeSort fun a b => a.raw ≤ b.raw).eraseReps

end Handle
end TaskMemory

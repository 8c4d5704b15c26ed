/-!
The bound on the number of slabs of a pool.
-/
namespace TaskMemory

inductive SlabLimit where
  | bounded (slabs : UInt32)
  /-- As many as a handle can address. -/
  | unbounded
  deriving DecidableEq, Inhabited

namespace SlabLimit

protected def default : SlabLimit := .unbounded

def text : SlabLimit → String
  | .bounded slabs => s!"Bounded({slabs})"
  | .unbounded => "Unbounded"

end SlabLimit
end TaskMemory

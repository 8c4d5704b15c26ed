/-!
Tracked values: values whose drop can be observed, and can be made to fail.
-/
namespace TaskMemory

/-- A value with an identity. Dropping it is recorded; dropping a bomb raises a fault. -/
structure Tracked where
  id : UInt64
  bomb : Bool := false
  deriving DecidableEq, Inhabited

end TaskMemory

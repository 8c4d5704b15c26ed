import TaskMemory.Handle.Basic

/-!
How the client of a pool names a value. A client may also make handles up, which is how the
behaviour of a pool towards handles that it never issued shows.
-/
namespace TaskMemory

inductive Reference where
  /-- The value of the construction with this number. -/
  | numbered (index : Nat)
  | raw (handle : Handle)
  deriving DecidableEq

end TaskMemory

import TaskMemory.Bulletin
import TaskMemory.Handle.Basic

/-!
The successors of a node: a list of handles in a block of its own. The block is given back
explicitly, which leaves the list empty; an empty list has no block.
-/
namespace TaskMemory

structure Successors where
  handles : List Handle := []
  deriving DecidableEq

namespace Successors

def storage (s : Successors) : Layout := Layout.array ⟨4, 4⟩ s.handles.length

def create (handles : List Handle) (env : Environment) : Successors × Environment :=
  let s : Successors := ⟨handles⟩
  (s, env.allocate s.storage)

/-- Give the block back and leave the list empty. A second time there is nothing to give back. -/
def release (s : Successors) (env : Environment) : Successors × Environment :=
  ({}, env.release s.storage)

def length (s : Successors) : Nat := s.handles.length

def isEmpty (s : Successors) : Bool := s.handles.isEmpty

def text (s : Successors) : String := Text.list (s.handles.map Handle.text)

/-- Release a list so many times: the list at first and after each release, with a bulletin. -/
def releases (s : Successors) (env : Environment) (seen : Mark) : Nat → List (Successors × Bulletin)
  | 0 => [(s, env.bulletin seen)]
  | n + 1 =>
    match s.release env with
    | (after, released) => (s, env.bulletin seen) :: after.releases released env.mark n

end Successors
end TaskMemory

import TaskMemory.Config.Error
import TaskMemory.Handle.Codec
import TaskMemory.Tracked.Basic

/-!
Faults: the ways an operation can break off. Each cause is a constructor; `message` is the text
that whoever stops the fault gets to see.
-/
namespace TaskMemory

inductive Fault where
  /-- A handle names a slab that the pool never created. -/
  | missingSlab (handle : Handle) (slab : UInt32) (slabs : Nat)
  /-- A slot was given back that is on the free list already. -/
  | releasedTwice (slot : Nat)
  /-- At the end of a slab this free slot had not been come across. -/
  | unsorted (slot : Nat)
  /-- A wait counter was decremented that stood at zero. -/
  | belowZero (graph : UInt32)
  /-- A stored object was asked for at a type that it does not have. -/
  | wrongType (key : UInt64) (held requested : String)
  | bomb (id : UInt64)
  /-- User code raised a fault with a text. -/
  | raised (text : String)
  /-- User code raised a fault without a text. -/
  | wordless
  /-- User code raised a fault that carries a tracked value, which is dropped with it. -/
  | carrying (value : Tracked)
  | addOverflow
  | subtractOverflow
  | multiplyOverflow
  | durationOverflow
  /-- Room was asked for that no address space has. -/
  | capacityOverflow
  /-- A thread waits for a slot that nobody will give back. -/
  | starved
  /-- A task was found where another one had been put. -/
  | wrongTask (expected : UInt64) (found : Option UInt64)
  /-- A handle arrived before its turn. -/
  | outOfOrder (found expected : UInt32)
  /-- A thread broke off whose outcome was needed. -/
  | threadFailed
  /-- Options were taken for valid that are not. -/
  | invalidOptions (cause : ConfigError)
  deriving DecidableEq

namespace Fault

/-- What stands for the text of a fault that has none. -/
def noText : String := "<non-string panic>"

def message : Fault → String
  | .missingSlab handle slab slabs =>
    s!"{handle.text} refers to slab {slab}, but the pool has {slabs} slabs"
  | .releasedTwice slot =>
    s!"assertion `left != right` failed: slot {slot} released twice\n  left: {slot}\n right: {slot}"
  | .unsorted slot =>
    s!"assertion `left == right` failed: free list not sorted\n  left: {slot}\n right: 4294967295"
  | .belowZero graph =>
    s!"assertion `left != right` failed: wait counter of a node in graph {graph} " ++
      "decremented below zero\n  left: 0\n right: 0"
  | .wrongType key held requested =>
    s!"shared store key {key} holds a `{held}`, requested as `{requested}`"
  | .bomb id => s!"bomb {id}"
  | .raised text => text
  | .wordless | .carrying _ => noText
  | .addOverflow => "attempt to add with overflow"
  | .subtractOverflow => "attempt to subtract with overflow"
  | .multiplyOverflow => "attempt to multiply with overflow"
  | .durationOverflow => "overflow in Duration::new"
  | .capacityOverflow => "capacity overflow"
  | .starved => "no slot will become free"
  | .wrongTask expected found =>
    "assertion `left == right` failed\n  left: " ++ found.elim "none" toString ++
      s!"\n right: {expected}"
  | .outOfOrder found expected =>
    s!"assertion `left == right` failed: ring reordered elements\n  left: {found}\n right: {expected}"
  | .threadFailed => "called `Result::unwrap()` on an `Err` value: Any \x7b .. \x7d"
  | .invalidOptions cause => s!"called `Result::unwrap()` on an `Err` value: {cause.text}"

end Fault
end TaskMemory

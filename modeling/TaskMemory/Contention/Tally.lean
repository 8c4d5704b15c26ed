import TaskMemory.Fault
import TaskMemory.Number.Binary64

/-!
Tallies of operations: how many there were, how long they took, and how often a thread had to try
again. Every sum is checked. Tallies of several threads are merged into one.
-/
namespace TaskMemory

/-- The sum of two words, unless it does not fit. -/
def addChecked (a b : UInt64) : Except Fault UInt64 :=
  if a.toNat + b.toNat < UInt64.size then .ok (a + b) else .error .addOverflow

/-- What a thread counts. Times are in nanoseconds. -/
structure Tally where
  ops : UInt64 := 0
  total : UInt64 := 0
  /-- The longest time of an operation. -/
  longest : UInt64 := 0
  /-- The number of operations that took longer than `slowAfter`. -/
  slow : UInt64 := 0
  retries : UInt64 := 0
  deriving DecidableEq

namespace Tally

def slowAfter : UInt64 := 1000000

def record (t : Tally) (time : UInt64) : Except Fault Tally := do
  let ops ← addChecked t.ops 1
  let total ← addChecked t.total time
  let slow ← addChecked t.slow (if slowAfter < time then 1 else 0)
  return { t with ops, total, longest := max t.longest time, slow }

def retry (t : Tally) : Except Fault Tally := do
  return { t with retries := ← addChecked t.retries 1 }

def merge (t other : Tally) : Except Fault Tally := do
  let ops ← addChecked t.ops other.ops
  let total ← addChecked t.total other.total
  let slow ← addChecked t.slow other.slow
  let retries ← addChecked t.retries other.retries
  return { ops, total, longest := max t.longest other.longest, slow, retries }

/-- The tally of a thread that starts with some retries and enters operations. -/
def ofTimes (retries : UInt64) (times : List UInt64) : Except Fault Tally :=
  times.foldlM record { retries }

def mergeAll (tallies : List Tally) : Except Fault Tally := tallies.foldlM merge {}

/-- The average time of an operation, zero if there was none. -/
def average (t : Tally) : Binary64 :=
  if t.ops = 0 then .finite 0
  else (Binary64.ofNat t.total.toNat).div (Binary64.ofNat t.ops.toNat)

end Tally
end TaskMemory

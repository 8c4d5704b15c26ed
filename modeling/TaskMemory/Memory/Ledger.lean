import TaskMemory.Text.Record

/-!
The account of the allocations that went through one place: how many blocks were granted and
returned, how many bytes are out, and the most that ever were. The entries are numbers without a
bound, where a machine keeps each in a word of 64 bits that goes back to zero after `2 ^ 64 - 1`.
So an account is that of a machine for as long as no entry has come to `2 ^ 64`, which takes that
many calls or bytes.
-/
namespace TaskMemory

structure Ledger where
  allocations : Nat := 0
  deallocations : Nat := 0
  liveBytes : Nat := 0
  /-- The largest value of `liveBytes` right after an allocation. -/
  peakBytes : Nat := 0
  deriving DecidableEq, Inhabited

namespace Ledger

def grant (l : Ledger) (size : Nat) : Ledger :=
  { l with
    allocations := l.allocations + 1
    liveBytes := l.liveBytes + size
    peakBytes := max l.peakBytes (l.liveBytes + size) }

def giveBack (l : Ledger) (size : Nat) : Ledger :=
  { l with deallocations := l.deallocations + 1, liveBytes := l.liveBytes - size }

def liveBlocks (l : Ledger) : Nat := l.allocations - l.deallocations

def text (l : Ledger) : String :=
  Text.record "AllocStats" [("allocations", toString l.allocations),
    ("deallocations", toString l.deallocations), ("live_bytes", toString l.liveBytes),
    ("peak_bytes", toString l.peakBytes)]

end Ledger
end TaskMemory

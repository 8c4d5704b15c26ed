import TaskMemory.Contention.Churn
import TaskMemory.Contention.Elapsed

/-!
The printed report on a run of the churn workload.
-/
namespace TaskMemory

structure ChurnReport where
  options : ChurnOptions
  elapsed : Elapsed
  outcome : ChurnOutcome

namespace ChurnReport

def rule : String := String.ofList (List.replicate 80 '=')

/-- The product of two words, unless it does not fit. -/
def multiplyChecked (a b : Nat) : Except Fault Nat :=
  if a * b < UInt64.size then .ok (a * b) else .error .multiplyOverflow

/-- The last line, which is there only if memory is still out. -/
def leakLine (liveBytes : Nat) : List String :=
  if liveBytes = 0 then [] else [s!"\n!!! {liveBytes} bytes still live after pool drop"]

/-- The lines of a report. There are none if the number of operations does not fit a word. -/
def lines (r : ChurnReport) : Except Fault (List String) := do
  let o := r.options
  let tally := r.outcome.tally
  let operations ← multiplyChecked o.threads o.opsPerThread
  let throughput := (Binary64.ofNat operations).div r.elapsed.inSeconds
  let longest := (Binary64.ofNat tally.longest.toNat).div (Binary64.ofNat 1000000)
  return ["\n" ++ rule,
    s!"POOL: {o.threads} threads x {o.opsPerThread} constructs (slab capacity {o.slabCapacity}, " ++
      s!"max {o.maxSlabs} slabs, window {o.window})",
    rule,
    "\n--- Timing ---",
    s!"Elapsed:     {r.elapsed.text}",
    s!"Throughput:  {throughput.fixed 0} constructs/sec",
    "\n--- Construct Latency ---",
    s!"Avg:         {tally.average.fixed 0} ns",
    s!"Max:         {longest.fixed 2} ms",
    s!"Slow >1ms:   {tally.slow}",
    s!"Exhausted:   {tally.retries} retries",
    "\n--- Memory ---",
    s!"Slabs:       {r.outcome.slabs}",
    s!"Peak bytes:  {r.outcome.ledger.peakBytes}",
    s!"Allocations: {r.outcome.ledger.allocations}"] ++ leakLine r.outcome.ledger.liveBytes

end ChurnReport
end TaskMemory

import TaskMemory.Fault
import TaskMemory.Number.Binary64

/-!
Spans of time, in seconds and nanoseconds. The text of a span is written in the largest unit that
leaves a whole part, with as many decimal places as it takes to be exact.
-/
namespace TaskMemory

/-- A span of time; there are fewer than a billion nanoseconds. -/
structure Elapsed where
  seconds : Nat
  nanoseconds : Nat
  deriving DecidableEq

namespace Elapsed

def perSecond : Nat := 1000000000

/-- A span from its two numbers, of which the second may run over into the first. -/
def make (seconds nanoseconds : Nat) : Except Fault Elapsed :=
  let total := seconds + nanoseconds / perSecond
  if total < UInt64.size then .ok ⟨total, nanoseconds % perSecond⟩ else .error .durationOverflow

def inSeconds (t : Elapsed) : Binary64 :=
  (Binary64.ofNat t.seconds).add ((Binary64.ofNat t.nanoseconds).div (Binary64.ofNat perSecond))

/-- A number with a decimal part of so many digits, of which the zeros at the end are left out. -/
def decimal (whole places part : Nat) : String :=
  let shown := ((Binary64.digits places part).reverse.dropWhile (· = '0')).reverse
  if shown.isEmpty then toString whole else toString whole ++ "." ++ String.ofList shown

def text (t : Elapsed) : String :=
  if 0 < t.seconds then decimal t.seconds 9 t.nanoseconds ++ "s"
  else if 1000000 ≤ t.nanoseconds then
    decimal (t.nanoseconds / 1000000) 6 (t.nanoseconds % 1000000) ++ "ms"
  else if 1000 ≤ t.nanoseconds then
    decimal (t.nanoseconds / 1000) 3 (t.nanoseconds % 1000) ++ "µs"
  else s!"{t.nanoseconds}ns"

end Elapsed
end TaskMemory

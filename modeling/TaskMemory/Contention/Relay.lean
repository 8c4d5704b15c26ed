import TaskMemory.Ring.Basic
import TaskMemory.Fault

/-!
The relay workload: one thread streams numbered handles through a ring to another, which checks
that they arrive in order.
-/
namespace TaskMemory.Relay

def check : List Handle → UInt32 → Except Fault Unit
  | [], _ => .ok ()
  | h :: rest, expected =>
    if h.raw = expected then check rest (expected + 1)
    else .error (.outOfOrder h.raw expected)

def run (o : RingOptions) (count : UInt32) : Except Fault Unit :=
  match Ring.create o { resource := .ofPolicy Policy.unlimited } with
  | .error e => .error (.invalidOptions e)
  | .ok ((ring : Ring Handle), _) => check (ring.stream 0 count.toNat).1.toList 0

end TaskMemory.Relay

import TaskMemory.Graph.Successors
import TaskMemory.Payload.Basic
import TaskMemory.Pool.Stored

/-!
Nodes of a task graph: a payload, the number of predecessors still to wait for, and the successors
to notify. A node is ready when its counter stands at zero; `decrement` tells the one caller who
brought it there. `notify` is the walk over the successors of a node that is complete.
-/
namespace TaskMemory

structure Node where
  graph : UInt32
  /-- The number of dependencies that are not satisfied yet. -/
  waitCount : UInt32
  payload : Payload
  successors : Successors

namespace Node

/-- A node with its payload and its successors in blocks of the environment. -/
def create (graph waitCount : UInt32) (work : Callable) (successors : List Handle)
    (env : Environment) : Node × Environment :=
  match Payload.create work env with
  | (payload, env) =>
    match Successors.create successors env with
    | (successors, env) => ({ graph, waitCount, payload, successors }, env)

/-- Record one satisfied dependency: whether it was the last one. A counter that stands at zero is
a fault, but it is moved all the same and starts over from the largest number. -/
def decrement (n : Node) : Except Fault Bool × Node :=
  (if n.waitCount = 0 then .error (.belowZero n.graph) else .ok (n.waitCount = 1),
    { n with waitCount := n.waitCount - 1 })

def isReady (n : Node) : Bool := n.waitCount = 0

def run (n : Node) (env : Environment) : Except Fault Bool × Node × Environment :=
  match n.payload.invoke env with
  | (ran, payload, env) => (ran, { n with payload }, env)

/-- Walk over successors in order, decrementing each; the ones that become ready are reported.
`decrement` finds the node of a handle and decrements it, `onReady` is the report. The count of the
reports, unless a fault ends the walk. -/
def notify {σ : Type} (decrement : Handle → σ → Except Fault Bool × σ)
    (onReady : Handle → σ → σ) : List Handle → σ → Except Fault Nat × σ
  | [], s => (.ok 0, s)
  | h :: rest, s =>
    match decrement h s with
    | (.error fault, s) => (.error fault, s)
    | (.ok false, s) => notify decrement onReady rest s
    | (.ok true, s) =>
      match notify decrement onReady rest (onReady h s) with
      | (.ok ready, s) => (.ok (ready + 1), s)
      | (.error fault, s) => (.error fault, s)

def text (n : Node) : String :=
  Text.openRecord "Node" [("graph_id", toString n.graph), ("wait_count", toString n.waitCount),
    ("payload", n.payload.text), ("successors", n.successors.text)]

/-- A node gives the block of its successors back before it drops its payload. -/
instance : Stored Node where
  slot := ⟨64, 8⟩
  needsDrop := true
  runsCode := false
  beginDrop _ env := env
  endDrop unwinding n env :=
    match n.successors.release env with
    | (successors, env) =>
      match n.payload.drop unwinding env with
      | (fault, env) => (fault, { n with successors }, env)

end Node
end TaskMemory

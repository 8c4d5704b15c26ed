import TaskMemory.Bulletin
import TaskMemory.Graph.Node
import TaskMemory.Handle.Reference
import TaskMemory.Pool.Host
import TaskMemory.Ring.Basic

/-!
A client that works on task graphs: the nodes live in a pool, and the handles of nodes that are
ready wait in a ring. The client uses no handle whose slot holds no node.
-/
namespace TaskMemory.Graph

inductive Request where
  | construct (graph waitCount : UInt32) (work : Callable) (successors : List Reference)
  | inform (target : Reference)
  | describe (target : Reference)
  | decrement (target : Reference)
  /-- So many threads decrement a node. Their number may be one that could not be read, which shows
  only when it is needed. -/
  | decrementParallel (target : Reference) (threads : Except String Nat)
  | run (target : Reference)
  | notify (target : Reference)
  /-- Put a handle into the ring, whatever it names. -/
  | push (target : Reference)
  | pull
  | clear
  /-- Pull a handle, run its node and notify the successors, so many times at most. -/
  | drain (most : Nat)
  | destroy (target : Reference)
  /-- A request that could not be read to its end; these targets came before that, and perhaps a
  value, which is dropped. -/
  | unreadable (targets : List Reference) (value : Option Tracked) (reason : String)

inductive Notification where
  /-- The number of nodes that became ready, the handles that went into the ring, and those that
  it refused. -/
  | notified (ready : Nat) (pushed refused : List Handle)
  | broken (fault : Fault)
  | notLive

inductive Turn where
  /-- Whether the node was ready, and whether this turn ran it. -/
  | taken (handle : Handle) (ready ran : Bool) (notification : Notification)
  | notLive (handle : Handle)

inductive Answer where
  | constructed (outcome : Except Refusal Handle)
  | information (graph : UInt32) (ready : Bool) (waitCount : UInt32) (successors : List Handle)
      (size : Nat)
  | description (text : String)
  | truth (yes : Bool)
  /-- How many decrements brought the counter to zero, did not, and ended in a fault. -/
  | decrements (last others faults : Nat)
  | notification (n : Notification)
  | pulled (handle : Option Handle)
  | turns (list : List Turn)
  | done
  | broken (fault : Fault)
  | notLive
  | unknownReference
  | unreadable (reason : String)

/-- A node that the client has constructed, and whether it is still there. -/
structure Entry where
  handle : Handle
  present : Bool

structure Client where
  ring : Ring Handle
  entries : Array Entry := #[]
  seen : Mark := {}

/-- A pool of nodes in the hands of a client. -/
abbrev Session := Host Node Client

/-- The answer to a request with the nodes, the number of handles in the ring, and a bulletin. A
node that has been destroyed shows neither counter nor flag. -/
structure Report where
  answer : Answer
  nodes : List (Option (UInt32 × Bool))
  queued : UInt32
  bulletin : Bulletin

namespace Session

def resolve? (w : Session) : Reference → Option Handle
  | .numbered i => w.state.entries[i]?.map Entry.handle
  | .raw h => some h

/-- Whether a handle can be used: it names a node, or a slab that does not exist. -/
def usable (w : Session) (h : Handle) : Bool :=
  !w.pool.hasSlab h || (w.pool.value? (w.pool.place h)).isSome

def withNode (w : Session) (target : Reference) (use : Handle → Node → Answer × Session) :
    Answer × Session :=
  match w.resolve? target with
  | none => (.unknownReference, w)
  | some h =>
    match w.get? h with
    | .error fault => (.broken fault, w)
    | .ok none => (.notLive, w)
    | .ok (some n) => use h n

def setRing (w : Session) (ring : Ring Handle) : Session :=
  { w with state := { w.state with ring } }

def decrement (h : Handle) (w : Session) : Except Fault Bool × Session :=
  match w.get? h with
  | .error fault => (.error fault, w)
  | .ok none => (.ok false, w)
  | .ok (some n) =>
    match n.decrement with
    | (last, n) => (last, w.set h n)

/-- A walk over successors: the session, and the handles that the ring took and refused. -/
structure Walk where
  session : Session
  pushed : Array Handle := #[]
  refused : Array Handle := #[]

/-- Put the handle of a node that is ready into the ring. -/
def Walk.onReady (h : Handle) (walk : Walk) : Walk :=
  match walk.session.state.ring.push h with
  | (true, ring) =>
    { walk with session := walk.session.setRing ring, pushed := walk.pushed.push h }
  | (false, ring) =>
    { walk with session := walk.session.setRing ring, refused := walk.refused.push h }

def Walk.decrement (h : Handle) (walk : Walk) : Except Fault Bool × Walk :=
  match Session.decrement h walk.session with
  | (last, session) => (last, { walk with session })

/-- Notify the successors of a node, if all of them can be used. -/
def notify (n : Node) (w : Session) : Notification × Session :=
  if n.successors.handles.all w.usable then
    match Node.notify Walk.decrement Walk.onReady n.successors.handles { session := w } with
    | (.ok ready, walk) =>
      (.notified ready walk.pushed.toList walk.refused.toList, walk.session)
    | (.error fault, walk) => (.broken fault, walk.session)
  else (.notLive, w)

def runNode (h : Handle) (n : Node) (w : Session) : Except Fault Bool × Session :=
  match n.run w.env with
  | (ran, n, env) => (ran, ({ w with env } : Session).set h n)

/-- Pull a handle, run its node and notify the successors; an empty ring gives no turn. -/
def turn (w : Session) : Option (Except Fault Turn × Session) :=
  match w.state.ring.pull with
  | (none, _) => none
  | (some h, ring) =>
    let w := w.setRing ring
    match w.get? h with
    | .error fault => some (.error fault, w)
    | .ok none => some (.ok (.notLive h), w)
    | .ok (some n) =>
      match runNode h n w with
      | (.error fault, w) => some (.error fault, w)
      | (.ok ran, w) =>
        match notify n w with
        | (notification, w) => some (.ok (.taken h n.isReady ran notification), w)

/-- Take so many turns at most, until the ring is empty. A fault outside a notification ends it. -/
def drain : Nat → Session → Except Fault (List Turn) × Session
  | 0, w => (.ok [], w)
  | most + 1, w =>
    match w.turn with
    | none => (.ok [], w)
    | some (.error fault, w) => (.error fault, w)
    | some (.ok turn, w) =>
      match drain most w with
      | (.ok turns, w) => (.ok (turn :: turns), w)
      | (.error fault, w) => (.error fault, w)

/-- Decrement a node so many times and count the outcomes. -/
def decrementAll (h : Handle) (n : Nat) (w : Session) : Answer × Session :=
  match n.fold (fun _ _ (state : (Nat × Nat × Nat) × Session) =>
      match decrement h state.2, state.1 with
      | (.ok true, w), (last, others, faults) => ((last + 1, others, faults), w)
      | (.ok false, w), (last, others, faults) => ((last, others + 1, faults), w)
      | (.error _, w), (last, others, faults) => ((last, others, faults + 1), w))
      ((0, 0, 0), w) with
  | ((last, others, faults), w) => (.decrements last others faults, w)

def construct (graph waitCount : UInt32) (work : Callable) (successors : List Handle)
    (w : Session) : Answer × Session :=
  match Node.create graph waitCount work successors w.env with
  | (node, env) =>
    match ({ w with env } : Session).insert node with
    | (.ok h, w) => (.constructed (.ok h),
        { w with state := { w.state with entries := w.state.entries.push ⟨h, true⟩ } })
    | (outcome, w) => (.constructed outcome, w)

def strike (site : Place) (w : Session) : Session :=
  let place := w.pool.place
  { w with state := { w.state with
      entries := w.state.entries.map fun e =>
        if place e.handle = site then { e with present := false } else e } }

def serve (w : Session) : Request → Answer × Session
  | .construct graph waitCount work successors =>
    match successors.mapM w.resolve? with
    | none => (.unknownReference, w)
    | some handles => w.construct graph waitCount work handles
  | .inform target => w.withNode target fun _ n =>
    (.information n.graph n.isReady n.waitCount n.successors.handles n.payload.block.size, w)
  | .describe target => w.withNode target fun _ n => (.description n.text, w)
  | .decrement target => w.withNode target fun h _ =>
    match decrement h w with
    | (.ok last, w) => (.truth last, w)
    | (.error fault, w) => (.broken fault, w)
  | .decrementParallel target threads => w.withNode target fun h _ =>
    match threads with
    | .error reason => (.unreadable reason, w)
    | .ok n => w.decrementAll h n
  | .run target => w.withNode target fun h n =>
    match runNode h n w with
    | (.ok ran, w) => (.truth ran, w)
    | (.error fault, w) => (.broken fault, w)
  | .notify target => w.withNode target fun _ n =>
    match notify n w with
    | (notification, w) => (.notification notification, w)
  | .push target =>
    match w.resolve? target with
    | none => (.unknownReference, w)
    | some h =>
      match w.state.ring.push h with
      | (yes, ring) => (.truth yes, w.setRing ring)
  | .pull =>
    match w.state.ring.pull with
    | (h, ring) => (.pulled h, w.setRing ring)
  | .clear => (.done, w.setRing w.state.ring.clear)
  | .drain most =>
    match drain most w with
    | (.ok turns, w) => (.turns turns, w)
    | (.error fault, w) => (.broken fault, w)
  | .destroy target => w.withNode target fun h _ =>
    match (w.strike (w.pool.place h)).remove h with
    | (.ok (), w) => (.done, w)
    | (.error fault, w) => (.broken fault, w)
  | .unreadable targets value reason =>
    if targets.all fun target => (w.resolve? target).isSome then
      match Tracked.dropAll false value.toList w.env with
      | (some fault, env) => (.broken fault, { w with env })
      | (none, env) => (.unreadable reason, { w with env })
    else (.unknownReference, w)

/-- The counter and the flag of a node that is still there. -/
def show? (w : Session) (e : Entry) : Option (UInt32 × Bool) :=
  if e.present then (w.pool.value? (w.pool.place e.handle)).map fun n =>
    (n.waitCount, n.payload.spent)
  else none

def run (w : Session) : List Request → List Report × Session
  | [] => ([], w)
  | request :: rest =>
    match w.serve request with
    | (answer, w) =>
      let report : Report := {
        answer
        nodes := w.state.entries.toList.map w.show?
        queued := w.state.ring.len
        bulletin := w.env.bulletin w.state.seen }
      match run { w with state := { w.state with seen := w.env.mark } } rest with
      | (reports, last) => (report :: reports, last)

/-- Drop the nodes, then the ring; the fault that a node ended in. -/
def dispose (w : Session) : Option Fault × Environment :=
  match w.pool.dispose w.env with
  | (fault, env) => (fault, w.state.ring.dispose env)

end Session

/-- A session with no nodes and an empty ring. The options of the pool are looked at first. -/
def create (pool : PoolOptions) (ring : RingOptions) (env : Environment) :
    Except ConfigError Session :=
  match Pool.create pool with
  | .error e => .error e
  | .ok pool =>
    match Ring.create ring env with
    | .error e => .error e
    | .ok (ring, env) => .ok ⟨pool, env, { ring }⟩

end TaskMemory.Graph

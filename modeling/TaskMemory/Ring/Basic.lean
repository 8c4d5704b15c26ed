import TaskMemory.Config.Options
import TaskMemory.Environment
import TaskMemory.Handle.Basic
import TaskMemory.Ring.Cursor
import Std.Data.HashMap

/-!
Rings: bounded queues between one producer and one consumer. The producer alone moves the
producer's cursor and writes slots, the consumer alone moves the consumer's cursor and reads them.
`push` and `pull` are the two ends, the rest looks at the pair of cursors.
-/
namespace TaskMemory

/-- What a ring can hold: values that are copied as a whole. -/
class Element (α : Type) extends Inhabited α where
  /-- The size and the alignment of an element. -/
  layout : Layout
  /-- The element that stands for a number, reduced to the width of the element. -/
  ofCount : UInt64 → α

instance : Element UInt8 where
  layout := ⟨1, 1⟩
  ofCount := UInt64.toUInt8

instance : Element UInt32 where
  layout := ⟨4, 4⟩
  ofCount := UInt64.toUInt32

instance : Element UInt64 where
  layout := ⟨8, 8⟩
  ofCount n := n

instance : Element Handle where
  layout := ⟨4, 4⟩
  ofCount n := ⟨n.toUInt32⟩

instance : Element Unit where
  layout := ⟨0, 1⟩
  ofCount _ := ()

/-- A ring of `capacity` slots. A slot that was never written holds the default element. -/
structure Ring (α : Type) where
  capacity : UInt32
  /-- Where the next element is written. -/
  producer : UInt32 := 0
  /-- Where the next element is read. -/
  consumer : UInt32 := 0
  slots : Std.HashMap UInt32 α := {}

namespace Ring

variable {α : Type} [Element α]

def storage (r : Ring α) : Layout := (Element.layout α).array r.capacity.toNat

/-- A ring with the given options, its slots in a block of the environment. -/
def create (o : RingOptions) (env : Environment) : Except ConfigError (Ring α × Environment) :=
  match o.validate with
  | .error e => .error e
  | .ok () =>
    let ring : Ring α := { capacity := o.capacity }
    .ok (ring, env.allocate ring.storage)

def dispose (r : Ring α) (env : Environment) : Environment := env.release r.storage

/-- Append an element; a full ring refuses it and stays as it is. -/
def push (r : Ring α) (a : α) : Bool × Ring α :=
  if Cursor.distance r.capacity r.producer r.consumer = r.capacity then (false, r)
  else (true, { r with
    slots := r.slots.insert (Cursor.slot r.capacity r.producer) a
    producer := Cursor.advance r.capacity r.producer })

def pull (r : Ring α) : Option α × Ring α :=
  if r.producer = r.consumer then (none, r)
  else (some (r.slots.getD (Cursor.slot r.capacity r.consumer) default),
    { r with consumer := Cursor.advance r.capacity r.consumer })

/-- Forget all elements by moving the consumer's cursor onto the producer's. -/
def clear (r : Ring α) : Ring α := { r with consumer := r.producer }

def len (r : Ring α) : UInt32 := Cursor.occupancy r.capacity r.producer r.consumer

def isEmpty (r : Ring α) : Bool := r.producer = r.consumer

def caughtUp (r : Ring α) : Bool := r.isEmpty

def freeSpace (r : Ring α) : UInt32 := if r.capacity < r.len then 0 else r.capacity - r.len

def text (r : Ring α) : String :=
  Text.openRecord "RingBuffer" [("capacity", toString r.capacity),
    ("producer", toString r.producer), ("consumer", toString r.consumer)]

def producerText (r : Ring α) : String := Text.record "Producer" [("ring", r.text)]

def consumerText (r : Ring α) : String := Text.record "Consumer" [("ring", r.text)]

/-- Push `n` elements counted up from `start`, whether or not the earlier ones were accepted; the
count of the accepted ones. -/
def pushMany (r : Ring α) (start : UInt64) (n : Nat) : Nat × Ring α :=
  n.fold (fun i _ state =>
    match state.2.push (Element.ofCount (start + i.toUInt64)) with
    | (true, r) => (state.1 + 1, r)
    | (false, r) => (state.1, r)) (0, r)

def pullMany (r : Ring α) (n : Nat) : Array (Option α) × Ring α :=
  n.fold (fun _ _ state =>
    match state.2.pull with
    | (a, r) => (state.1.push a, r)) (#[], r)

/-- Hand one element to the producer, who waits while the ring is full. The consumer, who keeps
what it pulls in `out`, then makes room. -/
def feed (out : Array α) (r : Ring α) (a : α) : Array α × Ring α :=
  match r.push a with
  | (true, r) => (out, r)
  | (false, r) =>
    match r.pull with
    | (pulled, r) => (pulled.elim out out.push, (r.push a).2)

/-- Stream `n` elements counted up from `start` through the ring: the consumer goes on until it has
pulled the elements that were pending and the `n` streamed ones. Here it pulls whenever the
producer has to wait, and at the end; what it gets does not depend on that. -/
def stream (r : Ring α) (start : UInt64) (n : Nat) : Array α × Ring α :=
  match n.fold (fun i _ state => feed state.1 state.2 (Element.ofCount (start + i.toUInt64)))
      ((#[], r) : Array α × Ring α) with
  | (out, r) =>
    match r.pullMany r.len.toNat with
    | (pulled, r) => (out ++ pulled.filterMap id, r)

end Ring
end TaskMemory

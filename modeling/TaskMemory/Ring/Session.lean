import TaskMemory.Ring.Basic

/-!
A client of a ring that uses both of its ends.
-/
namespace TaskMemory.Ring

inductive Request (α : Type) where
  | push (a : α)
  | pull
  /-- Push this many elements, counted up from a number. -/
  | pushMany (start : UInt64) (n : Nat)
  | pullMany (n : Nat)
  /-- Pull this many times and only count the elements. -/
  | skip (n : Nat)
  | clear
  | describe
  | describeEnds
  /-- Stream this many elements, counted up from a number, from end to end. -/
  | stream (start : UInt64) (n : Nat)

inductive Answer (α : Type) where
  | accepted (yes : Bool)
  | pulled (a : Option α)
  | pulledMany (elements : Array (Option α))
  | counted (n : Nat)
  | cleared
  | description (text : String)
  /-- What the two ends say about the ring. -/
  | ends (freeSpace capacity : UInt32) (producer : String) (isEmpty : Bool) (len : UInt32)
      (consumer : String)
  | streamed (elements : Array α)

variable {α : Type} [Element α]

def serve (r : Ring α) : Request α → Answer α × Ring α
  | .push a => match r.push a with
    | (yes, r) => (.accepted yes, r)
  | .pull => match r.pull with
    | (a, r) => (.pulled a, r)
  | .pushMany start n => match r.pushMany start n with
    | (accepted, r) => (.counted accepted, r)
  | .pullMany n => match r.pullMany n with
    | (elements, r) => (.pulledMany elements, r)
  | .skip n => match r.pullMany n with
    | (elements, r) => (.counted (elements.countP Option.isSome), r)
  | .clear => (.cleared, r.clear)
  | .describe => (.description r.text, r)
  | .describeEnds =>
    (.ends r.freeSpace r.capacity r.producerText r.isEmpty r.len r.consumerText, r)
  | .stream start n => match r.stream start n with
    | (elements, r) => (.streamed elements, r)

/-- The answer to a request, and what the ring says about itself after it. -/
structure Report (α : Type) where
  answer : Answer α
  len : UInt32
  isEmpty : Bool
  caughtUp : Bool
  freeSpace : UInt32

def run (r : Ring α) : List (Request α) → List (Report α) × Ring α
  | [] => ([], r)
  | request :: rest =>
    match r.serve request with
    | (answer, r) =>
      let report := ⟨answer, r.len, r.isEmpty, r.caughtUp, r.freeSpace⟩
      match r.run rest with
      | (reports, last) => (report :: reports, last)

end TaskMemory.Ring

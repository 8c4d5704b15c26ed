import Mathlib.Data.List.Basic
import TaskMemory.Ring.Basic

/-!
A producer and a consumer at one ring, step by step. Each load or store of a cursor and each read or
write of a slot is one step; what a thread decides from what it has loaded is part of that step. A
schedule says whose turn it is, so the lists of turns are the interleavings. A call that is not
interrupted does what `push` and `pull` do.
-/
namespace TaskMemory.Ring

/-- How far the producer has come in a push. -/
inductive Pushing (α : Type) where
  | idle
  /-- Its own cursor is loaded. -/
  | begun (a : α) (p : UInt32)
  /-- The consumer's cursor is loaded too and leaves room: the slot is written next. -/
  | granted (a : α) (p : UInt32)
  | written (a : α) (p : UInt32)
  deriving DecidableEq

/-- How far the consumer has come in a pull. -/
inductive Pulling (α : Type) where
  | idle
  /-- Its own cursor is loaded. -/
  | begun (c : UInt32)
  /-- The producer's cursor is loaded too and differs: the slot is read next. -/
  | granted (c : UInt32)
  | fetched (a : α) (c : UInt32)
  deriving DecidableEq

/-- How a call ends, noted at the step that decides it: the store of the cursor if there is one,
otherwise the load of the other thread's cursor. -/
inductive Outcome (α : Type) where
  /-- The producer's cursor moves on, which publishes the element in this slot. -/
  | accepted (slot : UInt32) (a : α)
  | refused
  /-- The consumer's cursor moves on, which completes the pull. -/
  | pulled (a : α)
  | missed
  deriving DecidableEq

/-- A ring between its two threads. -/
structure Exchange (α : Type) where
  ring : Ring α
  pushing : Pushing α := .idle
  pulling : Pulling α := .idle

/-- Whose step is next. -/
inductive Turn (α : Type) where
  /-- If the producer is idle, it begins to push this element; otherwise it goes on. -/
  | producer (next : α)
  | consumer

namespace Exchange

/-- Two idle threads at a new ring. -/
def start {α : Type} (capacity : UInt32) : Exchange α := { ring := { capacity } }

variable {α : Type} {x : Exchange α} {next a : α} {p c : UInt32}

/-- One step of the producer. -/
def produce (next : α) (x : Exchange α) : Option (Outcome α) × Exchange α :=
  match x.pushing with
  | .idle => (none, { x with pushing := .begun next x.ring.producer })
  | .begun a p =>
    if Cursor.distance x.ring.capacity p x.ring.consumer = x.ring.capacity then
      (some .refused, { x with pushing := .idle })
    else (none, { x with pushing := .granted a p })
  | .granted a p =>
    (none, { x with
      ring := { x.ring with slots := x.ring.slots.insert (Cursor.slot x.ring.capacity p) a }
      pushing := .written a p })
  | .written a p =>
    (some (.accepted (Cursor.slot x.ring.capacity p) a), { x with
      ring := { x.ring with producer := Cursor.advance x.ring.capacity p }
      pushing := .idle })

/-- A push begins with a look at the own cursor. -/
theorem produce_idle (h : x.pushing = .idle) :
    x.produce next = (none, { x with pushing := .begun next x.ring.producer }) := by
  rw [produce, h]

/-- A push that sees the cursors a capacity apart ends. -/
theorem produce_refused (h : x.pushing = .begun a p)
    (hFull : Cursor.distance x.ring.capacity p x.ring.consumer = x.ring.capacity) :
    x.produce next = (some .refused, { x with pushing := .idle }) := by
  simp only [produce, h, if_pos hFull]

/-- If the cursors are less than a capacity apart a slot is granted. -/
theorem produce_granted (h : x.pushing = .begun a p)
    (hRoom : Cursor.distance x.ring.capacity p x.ring.consumer ≠ x.ring.capacity) :
    x.produce next = (none, { x with pushing := .granted a p }) := by
  simp only [produce, h, if_neg hRoom]

/-- The element is written before anybody can see it. -/
theorem produce_write (h : x.pushing = .granted a p) :
    x.produce next = (none, { x with
      ring := { x.ring with slots := x.ring.slots.insert (Cursor.slot x.ring.capacity p) a }
      pushing := .written a p }) := by
  rw [produce, h]

/-- The cursor is published last. -/
theorem produce_publish (h : x.pushing = .written a p) :
    x.produce next = (some (.accepted (Cursor.slot x.ring.capacity p) a), { x with
      ring := { x.ring with producer := Cursor.advance x.ring.capacity p }
      pushing := .idle }) := by
  rw [produce, h]

variable [Element α]

/-- One step of the consumer. -/
def consume (x : Exchange α) : Option (Outcome α) × Exchange α :=
  match x.pulling with
  | .idle => (none, { x with pulling := .begun x.ring.consumer })
  | .begun c =>
    if x.ring.producer = c then (some .missed, { x with pulling := .idle })
    else (none, { x with pulling := .granted c })
  | .granted c =>
    (none, { x with
      pulling := .fetched (x.ring.slots.getD (Cursor.slot x.ring.capacity c) default) c })
  | .fetched a c =>
    (some (.pulled a), { x with
      ring := { x.ring with consumer := Cursor.advance x.ring.capacity c }
      pulling := .idle })

theorem consume_idle (h : x.pulling = .idle) :
    x.consume = (none, { x with pulling := .begun x.ring.consumer }) := by
  rw [consume, h]

/-- A pull that sees the cursors meet ends. -/
theorem consume_missed (h : x.pulling = .begun c) (hEmpty : x.ring.producer = c) :
    x.consume = (some .missed, { x with pulling := .idle }) := by
  simp only [consume, h, if_pos hEmpty]

/-- A pull that sees the cursors apart has an element to read. -/
theorem consume_granted (h : x.pulling = .begun c) (hMore : x.ring.producer ≠ c) :
    x.consume = (none, { x with pulling := .granted c }) := by
  simp only [consume, h, if_neg hMore]

theorem consume_read (h : x.pulling = .granted c) :
    x.consume = (none, { x with
      pulling := .fetched (x.ring.slots.getD (Cursor.slot x.ring.capacity c) default) c }) := by
  rw [consume, h]

/-- The slot is given free after its element has been read. -/
theorem consume_leave (h : x.pulling = .fetched a c) :
    x.consume = (some (.pulled a), { x with
      ring := { x.ring with consumer := Cursor.advance x.ring.capacity c }
      pulling := .idle }) := by
  rw [consume, h]

def step (x : Exchange α) : Turn α → Option (Outcome α) × Exchange α
  | .producer next => x.produce next
  | .consumer => x.consume

/-- The outcomes along a schedule, and where it leads. -/
def run (x : Exchange α) : List (Turn α) → List (Outcome α) × Exchange α
  | [] => ([], x)
  | turn :: rest =>
    match x.step turn with
    | (outcome, x) =>
      match x.run rest with
      | (log, last) => (outcome.toList ++ log, last)

theorem step_capacity (x : Exchange α) (turn : Turn α) :
    (x.step turn).2.ring.capacity = x.ring.capacity := by
  cases turn with
  | producer next =>
      rw [step, produce]
      split
      · rfl
      · split <;> rfl
      · rfl
      · rfl
  | consumer =>
      rw [step, consume]
      split
      · rfl
      · split <;> rfl
      · rfl
      · rfl

theorem run_capacity (x : Exchange α) (schedule : List (Turn α)) :
    (x.run schedule).2.ring.capacity = x.ring.capacity := by
  induction schedule generalizing x with
  | nil => rfl
  | cons turn rest ih => exact (ih _).trans (x.step_capacity turn)

/-- The producer alone pushes as `push` does. -/
theorem run_push (x : Exchange α) (hIdle : x.pushing = .idle) (a : α) :
    ∃ steps, x.run (List.replicate steps (.producer a)) =
      ([if (x.ring.push a).1 then .accepted (Cursor.slot x.ring.capacity x.ring.producer) a
        else .refused], { x with ring := (x.ring.push a).2 }) := by
  obtain ⟨ring, pushing, pulling⟩ := x
  obtain rfl : pushing = .idle := hIdle
  by_cases hFull : Cursor.distance ring.capacity ring.producer ring.consumer = ring.capacity
  · refine ⟨2, ?_⟩
    simp [List.replicate, run, step, produce, push, hFull]
  · refine ⟨4, ?_⟩
    simp [List.replicate, run, step, produce, push, hFull]

/-- The consumer alone pulls as `pull` does. -/
theorem run_pull (x : Exchange α) (hIdle : x.pulling = .idle) :
    ∃ steps, x.run (List.replicate steps .consumer) =
      ([x.ring.pull.1.elim .missed .pulled], { x with ring := x.ring.pull.2 }) := by
  obtain ⟨ring, pushing, pulling⟩ := x
  obtain rfl : pulling = .idle := hIdle
  by_cases hEmpty : ring.producer = ring.consumer
  · refine ⟨2, ?_⟩
    simp [List.replicate, run, step, consume, pull, hEmpty]
  · refine ⟨4, ?_⟩
    simp [List.replicate, run, step, consume, pull, hEmpty]

end Exchange
end TaskMemory.Ring

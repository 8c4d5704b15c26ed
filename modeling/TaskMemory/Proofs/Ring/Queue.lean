import TaskMemory.Proofs.Ring.Contents
import TaskMemory.Ring.Session

/-!
A ring in the hands of one client is a bounded queue. `Queue` is the queue, `Queue.Serves` says what
it answers to each request of a client, and `Ring.Matches` relates a ring to the queue of the
elements that it holds.
-/
namespace TaskMemory

/-- A queue of so many elements at most, the oldest one first. -/
structure Queue (α : Type) where
  capacity : Nat
  items : List α := []

namespace Queue

variable {α : Type}

/-- The number of elements that still fit. -/
def space (q : Queue α) : Nat := q.capacity - q.items.length

/-- Append an element if the queue has fewer than it can hold. -/
def push (q : Queue α) (a : α) : Bool × Queue α :=
  if q.items.length < q.capacity then (true, { q with items := q.items ++ [a] }) else (false, q)

/-- Remove the oldest element, if there is one. -/
def pull (q : Queue α) : Option α × Queue α :=
  (q.items.head?, { q with items := q.items.tail })

def clear (q : Queue α) : Queue α := { q with items := [] }

/-- Append as many of these elements as fit, the first ones first. -/
def fill (q : Queue α) (more : List α) : Queue α :=
  { q with items := q.items ++ more.take q.space }

/-- An element behind others gets in if they do not take up all the space. -/
theorem push_fill {q : Queue α} (hLe : q.items.length ≤ q.capacity) (more : List α) (a : α) :
    (q.fill more).push a = (decide (more.length < q.space), q.fill (more ++ [a])) := by
  have hLength : (q.fill more).items.length = q.items.length + min q.space more.length := by
    rw [fill, List.length_append, List.length_take]
  have hSpace : q.space = q.capacity - q.items.length := rfl
  by_cases hRoom : more.length < q.space
  · have hPush : (q.fill more).items.length < (q.fill more).capacity := by
      change _ < q.capacity
      omega
    have hAll : (more ++ [a]).take q.space = more.take q.space ++ [a] := by
      rw [List.take_of_length_le (by rw [List.length_append]; exact hRoom),
        List.take_of_length_le (Nat.le_of_lt hRoom)]
    rw [push, if_pos hPush, decide_eq_true hRoom, fill, fill, hAll, List.append_assoc]
  · have hPush : ¬(q.fill more).items.length < (q.fill more).capacity := by
      change ¬_ < q.capacity
      omega
    rw [push, if_neg hPush, decide_eq_false hRoom, fill, fill,
      List.take_append_of_le_length (not_lt.mp hRoom)]

/-- Of so many places in a queue, these hold an element. -/
theorem countP_isSome (items : List α) (n : Nat) :
    ((List.range n).map fun i => items[i]?).countP Option.isSome = (items.take n).length := by
  induction n with
  | zero => rfl
  | succ n ih =>
      rw [List.range_succ, List.map_append, List.countP_append, ih, List.map_singleton,
        List.countP_singleton, List.length_take, List.length_take]
      by_cases hIn : n < items.length
      · simp [hIn]
        omega
      · simp [hIn]
        omega

theorem filterMap_getElem? (items : List α) :
    ((List.range items.length).map fun i => items[i]?).filterMap id = items := by
  have hSome : (List.range items.length).map (fun i => items[i]?) = items.map some := by
    apply List.ext_getElem
    · simp
    · simp
  rw [hSome, List.filterMap_map, Function.id_comp, List.filterMap_some]

variable [Element α]

/-- So many elements, counted up from a number. -/
def counted (start : UInt64) (n : Nat) : List α :=
  (List.range n).map fun i => Element.ofCount (start + i.toUInt64)

@[simp] theorem length_counted (start : UInt64) (n : Nat) :
    (counted start n : List α).length = n := by
  rw [counted, List.length_map, List.length_range]

theorem counted_succ (start : UInt64) (n : Nat) : (counted start (n + 1) : List α) =
    counted start n ++ [Element.ofCount (start + n.toUInt64)] := by
  rw [counted, List.range_succ, List.map_append, List.map_singleton, counted]

/-- What a queue answers to a request, and the queue after it. Texts are not its business. -/
inductive Serves : Queue α → Ring.Request α → Ring.Answer α → Queue α → Prop where
  | push (q : Queue α) (a : α) : Serves q (.push a) (.accepted (q.push a).1) (q.push a).2
  | pull (q : Queue α) : Serves q .pull (.pulled q.pull.1) q.pull.2
  /-- As many as fit get in, and nothing after them. -/
  | pushMany (q : Queue α) (start : UInt64) (n : Nat) :
      Serves q (.pushMany start n) (.counted (min n q.space))
        (q.fill (counted start n))
  | pullMany (q : Queue α) (n : Nat) :
      Serves q (.pullMany n) (.pulledMany ((List.range n).map fun i => q.items[i]?).toArray)
        { q with items := q.items.drop n }
  | skip (q : Queue α) (n : Nat) :
      Serves q (.skip n) (.counted (q.items.take n).length) { q with items := q.items.drop n }
  | clear (q : Queue α) : Serves q .clear .cleared q.clear
  | describe (q : Queue α) (text : String) : Serves q .describe (.description text) q
  /-- Both endpoints are taken anew and asked. -/
  | describeEnds (q : Queue α) {freeSpace capacity len : UInt32} (producer consumer : String)
      (hFree : freeSpace.toNat = q.space) (hCapacity : capacity.toNat = q.capacity)
      (hLen : len.toNat = q.items.length) :
      Serves q .describeEnds
        (.ends freeSpace capacity producer q.items.isEmpty len consumer) q
  /-- What waited and then what is streamed comes out at the other end. -/
  | stream (q : Queue α) (start : UInt64) (n : Nat) :
      Serves q (.stream start n) (.streamed (q.items ++ counted start n).toArray) q.clear

omit [Element α] in
/-- What a report says about the queue after its request. -/
structure Shows (q : Queue α) (report : Ring.Report α) : Prop where
  len : report.len.toNat = q.items.length
  isEmpty : report.isEmpty = q.items.isEmpty
  caughtUp : report.caughtUp = q.items.isEmpty
  freeSpace : report.freeSpace.toNat = q.capacity - q.items.length

/-- Step by step the reports say what a queue would, and this is the queue in the end. -/
inductive Reports : Queue α → List (Ring.Request α) → List (Ring.Report α) → Queue α → Prop where
  | nil (q : Queue α) : Reports q [] [] q
  | cons {q next last : Queue α} {request : Ring.Request α} {report : Ring.Report α}
      {requests : List (Ring.Request α)} {reports : List (Ring.Report α)}
      (serves : Serves q request report.answer next) (shows : next.Shows report)
      (rest : Reports next requests reports last) :
      Reports q (request :: requests) (report :: reports) last

end Queue

namespace Ring

variable {α : Type} [Element α] {r : Ring α} {q : Queue α}

omit [Element α] in
theorem push_capacity (r : Ring α) (a : α) : (r.push a).2.capacity = r.capacity := by
  rw [push]
  split <;> rfl

theorem pull_capacity (r : Ring α) : r.pull.2.capacity = r.capacity := by
  rw [pull]
  split <;> rfl

theorem pushMany_succ (r : Ring α) (start : UInt64) (n : Nat) :
    r.pushMany start (n + 1) =
      match (r.pushMany start n).2.push (Element.ofCount (start + n.toUInt64)) with
      | (true, r') => ((r.pushMany start n).1 + 1, r')
      | (false, r') => ((r.pushMany start n).1, r') := by
  rw [pushMany, Nat.fold_succ]
  rfl

theorem pullMany_succ (r : Ring α) (n : Nat) : r.pullMany (n + 1) =
    ((r.pullMany n).1.push (r.pullMany n).2.pull.1, (r.pullMany n).2.pull.2) := by
  rw [pullMany, Nat.fold_succ]
  rfl

/-- The first part of a stream, in which the producer hands over all of its elements. -/
def fed (r : Ring α) (start : UInt64) (n : Nat) : Array α × Ring α :=
  n.fold (fun i _ state => feed state.1 state.2 (Element.ofCount (start + i.toUInt64))) (#[], r)

theorem fed_succ (r : Ring α) (start : UInt64) (n : Nat) : r.fed start (n + 1) =
    feed (r.fed start n).1 (r.fed start n).2 (Element.ofCount (start + n.toUInt64)) := by
  rw [fed, Nat.fold_succ]
  rfl

/-- A stream is fed to the ring, and what is left there is drained. -/
theorem stream_eq (r : Ring α) (start : UInt64) (n : Nat) : r.stream start n =
    let last := (r.fed start n).2.pullMany (r.fed start n).2.len.toNat
    ((r.fed start n).1 ++ last.1.filterMap id, last.2) := rfl

/-- The ring holds the elements of the queue and has as many slots as the queue has room. -/
structure Matches (r : Ring α) (q : Queue α) : Prop where
  capacity : r.capacity.toNat = q.capacity
  holds : ∃ passed, r.Holds passed q.items

namespace Matches

variable (matched : r.Matches q)

include matched

theorem length_le : q.items.length ≤ q.capacity := by
  obtain ⟨_, holds⟩ := matched.holds
  exact matched.capacity ▸ holds.length_le

/-- A push is refused by both, or accepted by both. -/
theorem push (a : α) : (r.push a).1 = (q.push a).1 ∧ (r.push a).2.Matches (q.push a).2 := by
  obtain ⟨passed, holds⟩ := matched.holds
  by_cases hRoom : q.items.length < q.capacity
  · obtain ⟨hYes, after⟩ := holds.push_of_room (a := a) (matched.capacity ▸ hRoom)
    rw [Queue.push, if_pos hRoom]
    exact ⟨hYes, (congrArg UInt32.toNat (r.push_capacity a)).trans matched.capacity, passed, after⟩
  · have hFull : q.items.length = r.capacity.toNat :=
      (Nat.le_antisymm matched.length_le (not_lt.mp hRoom)).trans matched.capacity.symm
    rw [Queue.push, if_neg hRoom, holds.push_of_full hFull]
    exact ⟨rfl, matched⟩

/-- A pull gives the same element. -/
theorem pull : r.pull.1 = q.pull.1 ∧ r.pull.2.Matches q.pull.2 := by
  obtain ⟨passed, holds⟩ := matched.holds
  have hCapacity : r.pull.2.capacity.toNat = q.capacity :=
    (congrArg UInt32.toNat r.pull_capacity).trans matched.capacity
  obtain ⟨capacity, items⟩ := q
  cases items with
  | nil =>
      have hSame := holds.pull_nil rfl
      exact ⟨congrArg Prod.fst hSame, hCapacity, passed, hSame ▸ holds⟩
  | cons a rest =>
      obtain ⟨hAnswer, after⟩ := holds.pull_cons rfl
      exact ⟨hAnswer, hCapacity, passed + 1, after⟩

theorem clear : r.clear.Matches q.clear := by
  obtain ⟨_, holds⟩ := matched.holds
  exact ⟨matched.capacity, _, holds.clear⟩

/-- The queries after a request answer for the queue. -/
theorem shows (answer : Answer α) :
    q.Shows ⟨answer, r.len, r.isEmpty, r.caughtUp, r.freeSpace⟩ := by
  obtain ⟨_, holds⟩ := matched.holds
  exact ⟨holds.toNat_len, holds.isEmpty_eq, holds.isEmpty_eq,
    matched.capacity ▸ holds.toNat_freeSpace⟩

/-- Many pushes fill the queue up to its capacity. -/
theorem pushMany (start : UInt64) (n : Nat) : (r.pushMany start n).1 = min n q.space ∧
    (r.pushMany start n).2.Matches (q.fill (Queue.counted start n)) := by
  induction n with
  | zero =>
      refine ⟨(Nat.zero_min _).symm, ?_⟩
      have hNone : q.fill (Queue.counted start 0) = q := by
        rw [Queue.fill, Queue.counted, List.range_zero, List.map_nil, List.take_nil,
          List.append_nil]
      rw [hNone]
      exact matched
  | succ n ih =>
      obtain ⟨hCount, before⟩ := ih
      obtain ⟨hAnswer, after⟩ := before.push (Element.ofCount (start + n.toUInt64))
      rw [Queue.push_fill matched.length_le, Queue.length_counted] at hAnswer
      rw [Queue.push_fill matched.length_le, ← Queue.counted_succ] at after
      rw [pushMany_succ]
      rcases hPush : (r.pushMany start n).2.push (Element.ofCount (start + n.toUInt64)) with
        ⟨_ | _, r'⟩
      · rw [hPush] at hAnswer after
        have hFull := of_decide_eq_false hAnswer.symm
        exact ⟨by dsimp only; omega, after⟩
      · rw [hPush] at hAnswer after
        have hRoom := of_decide_eq_true hAnswer.symm
        exact ⟨by dsimp only; omega, after⟩

/-- Many pulls give the elements in their order, and nothing once these have run out. -/
theorem pullMany (n : Nat) :
    (r.pullMany n).1 = ((List.range n).map fun i => q.items[i]?).toArray ∧
    (r.pullMany n).2.Matches { q with items := q.items.drop n } := by
  induction n with
  | zero => exact ⟨rfl, matched⟩
  | succ n ih =>
      obtain ⟨hAnswers, before⟩ := ih
      obtain ⟨hAnswer, after⟩ := before.pull
      rw [pullMany_succ]
      constructor
      · rw [hAnswers, hAnswer, Queue.pull, List.range_succ, List.map_append, List.push_toArray,
          List.head?_drop]
        rfl
      · rw [Queue.pull, List.tail_drop] at after
        exact after

/-- A producer that waits for room hands its element over behind all others. -/
theorem feed (out : Array α) (a : α) : ∃ items, (Ring.feed out r a).2.Matches { q with items } ∧
    (Ring.feed out r a).1.toList ++ items = out.toList ++ q.items ++ [a] := by
  obtain ⟨hAnswer, after⟩ := matched.push a
  rw [Ring.feed]
  by_cases hRoom : q.items.length < q.capacity
  · rw [Queue.push, if_pos hRoom] at hAnswer after
    rcases hPush : r.push a with ⟨yes, r'⟩
    rw [hPush] at hAnswer after
    obtain rfl : yes = true := hAnswer
    exact ⟨_, after, (List.append_assoc ..).symm⟩
  · rw [Queue.push, if_neg hRoom] at hAnswer after
    rcases hPush : r.push a with ⟨yes, r'⟩
    rw [hPush] at hAnswer after
    obtain rfl : yes = false := hAnswer
    obtain ⟨hPulled, pulled⟩ := after.pull
    have hFull := matched.length_le
    have hPos : 0 < q.capacity := by
      obtain ⟨_, holds⟩ := matched.holds
      exact matched.capacity ▸ holds.sized.pos
    obtain ⟨capacity, items⟩ := q
    cases items with
    | nil => exact absurd hPos hRoom
    | cons b rest =>
        have hPushed := (pulled.push a).2
        rw [Queue.push, if_pos (by exact hFull)] at hPushed
        refine ⟨_, hPushed, ?_⟩
        dsimp only at hPulled ⊢
        rw [hPulled]
        simp [Queue.pull]

/-- What is fed comes out in its order, or is in the queue still. -/
theorem fed (start : UInt64) (n : Nat) : ∃ items,
    (r.fed start n).2.Matches { q with items } ∧
    (r.fed start n).1.toList ++ items = q.items ++ Queue.counted start n := by
  induction n with
  | zero => exact ⟨q.items, matched, (List.append_nil _).symm⟩
  | succ n ih =>
      obtain ⟨items, before, hBefore⟩ := ih
      obtain ⟨items', after, hAfter⟩ :=
        before.feed (r.fed start n).1 (Element.ofCount (start + n.toUInt64))
      refine ⟨items', ?_, ?_⟩
      · rw [fed_succ]
        exact after
      · rw [fed_succ, hAfter, hBefore, Queue.counted_succ, List.append_assoc]

/-- A stream comes out behind what was there before, complete and in its order. -/
theorem stream (start : UInt64) (n : Nat) :
    (r.stream start n).1 = (q.items ++ Queue.counted start n).toArray ∧
    (r.stream start n).2.Matches q.clear := by
  obtain ⟨items, fed, hFed⟩ := matched.fed start n
  obtain ⟨_, holds⟩ := fed.holds
  obtain ⟨hPulled, after⟩ := fed.pullMany items.length
  rw [stream_eq, holds.toNat_len]
  constructor
  · apply Array.toList_inj.mp
    dsimp only
    rw [hPulled, Array.toList_append, Array.toList_filterMap, Queue.filterMap_getElem?, hFed]
  · rw [List.drop_length] at after
    exact after

/-- Every request gets the reply that the queue gives. -/
theorem serve (request : Request α) : ∃ next,
    q.Serves request (r.serve request).1 next ∧ (r.serve request).2.Matches next := by
  cases request with
  | push a =>
      obtain ⟨hAnswer, after⟩ := matched.push a
      refine ⟨_, ?_, after⟩
      change q.Serves _ (.accepted (r.push a).1) _
      rw [hAnswer]
      exact .push q a
  | pull =>
      obtain ⟨hAnswer, after⟩ := matched.pull
      refine ⟨_, ?_, after⟩
      change q.Serves _ (.pulled r.pull.1) _
      rw [hAnswer]
      exact .pull q
  | pushMany start n =>
      obtain ⟨hAnswer, after⟩ := matched.pushMany start n
      refine ⟨_, ?_, after⟩
      change q.Serves _ (.counted (r.pushMany start n).1) _
      rw [hAnswer]
      exact .pushMany q start n
  | pullMany n =>
      obtain ⟨hAnswer, after⟩ := matched.pullMany n
      refine ⟨_, ?_, after⟩
      change q.Serves _ (.pulledMany (r.pullMany n).1) _
      rw [hAnswer]
      exact .pullMany q n
  | skip n =>
      obtain ⟨hAnswer, after⟩ := matched.pullMany n
      refine ⟨_, ?_, after⟩
      change q.Serves _ (.counted ((r.pullMany n).1.countP Option.isSome)) _
      rw [hAnswer, List.countP_toArray, Queue.countP_isSome]
      exact .skip q n
  | clear => exact ⟨_, .clear q, matched.clear⟩
  | describe => exact ⟨_, .describe q _, matched⟩
  | describeEnds =>
      obtain ⟨_, holds⟩ := matched.holds
      refine ⟨q, ?_, matched⟩
      rw [Ring.serve, holds.isEmpty_eq]
      refine .describeEnds q _ _ ?_ matched.capacity holds.toNat_len
      rw [holds.toNat_freeSpace, matched.capacity]
      rfl
  | stream start n =>
      obtain ⟨hAnswer, after⟩ := matched.stream start n
      refine ⟨_, ?_, after⟩
      change q.Serves _ (.streamed (r.stream start n).1) _
      rw [hAnswer]
      exact .stream q start n

/-- The replies to any requests are those of the queue, by induction from one to the next. -/
theorem run (requests : List (Request α)) : ∃ last,
    q.Reports requests (r.run requests).1 last ∧ (r.run requests).2.Matches last := by
  induction requests generalizing r q with
  | nil => exact ⟨q, .nil q, matched⟩
  | cons request rest ih =>
      obtain ⟨next, serves, after⟩ := matched.serve request
      obtain ⟨last, reports, hLast⟩ := ih after
      exact ⟨last, .cons serves (after.shows _) reports, hLast⟩

end Matches

theorem matches_empty {capacity : UInt32} (sized : Cursor.Sized capacity) :
    ({ capacity } : Ring α).Matches { capacity := capacity.toNat } :=
  ⟨rfl, 0, holds_nil sized⟩

/-- A new ring of any capacity that is accepted answers every client as an empty queue of that
capacity does, and stays in bounds. -/
theorem run_reports {o : RingOptions} (h : o.validate = .ok ()) :
    (∀ env, ∃ env', create (α := α) o env = .ok ({ capacity := o.capacity }, env')) ∧
    ∀ requests : List (Request α),
      (∃ last, Queue.Reports { capacity := o.capacity.toNat } requests
        (run { capacity := o.capacity } requests).1 last) ∧
      (run { capacity := o.capacity } requests).2.InBounds := by
  refine ⟨fun env => ⟨_, create_eq h env⟩, fun requests => ?_⟩
  obtain ⟨last, reports, matched⟩ :=
    (matches_empty (α := α) (Cursor.validate_eq_ok_iff.mp h)).run requests
  obtain ⟨_, holds⟩ := matched.holds
  exact ⟨⟨last, reports⟩, holds.inBounds⟩

/-- A client of the largest ring, which sets the consumer on the producer in between. -/
def clearing : List (Request UInt32) :=
  [.push 5, .pushMany 6 3, .pull, .describeEnds, .clear, .pull, .push 9, .stream 1 2]

theorem run_reports_largest : (⟨1073741824⟩ : RingOptions).validate = .ok () ∧
    (run { capacity := 1073741824 } clearing).1.map Report.len = [1, 4, 3, 3, 0, 0, 1, 0] ∧
    (∃ last, Queue.Reports { capacity := 1073741824 } clearing
      (run { capacity := 1073741824 } clearing).1 last) ∧
    (run { capacity := 1073741824 } clearing).2.InBounds :=
  ⟨rfl, by decide +kernel, (run_reports (o := ⟨1073741824⟩) rfl).2 clearing⟩

end Ring
end TaskMemory

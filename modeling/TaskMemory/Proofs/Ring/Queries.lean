import TaskMemory.Proofs.Ring.Handover

/-!
Queries of a ring at which a producer and a consumer may be at work. A query loads the consumer's
cursor first and the producer's cursor after it, so the ring that it sees need not have existed at
any instant. What it sees depends on one number: the elements that the ring held at the first load
together with those that were published before the second.
-/
namespace TaskMemory.Ring

variable {α : Type}

/-- The ring as a query sees it that loads the consumer's cursor at one instant and the producer's
cursor at a later one. -/
def seen (first second : Ring α) : Ring α := { second with consumer := first.consumer }

variable [Element α] {capacity : UInt32} {r : Ring α} {n m : Nat}

/-- The ring holds so many elements. -/
def Has (r : Ring α) (n : Nat) : Prop :=
  ∃ passed elements, r.Holds passed elements ∧ elements.length = n

theorem Has.toNat_len (has : r.Has n) : r.len.toNat = n := by
  obtain ⟨_, _, holds, hLength⟩ := has
  exact holds.toNat_len.trans hLength

theorem Has.unique (has : r.Has n) (has' : r.Has m) : n = m :=
  has.toNat_len.symm.trans has'.toNat_len

namespace Exchange

/-- What two threads and the owner of a ring can come to, from a new ring on. To clear a ring takes
exclusive access, so no push and no pull is under way then. -/
inductive Reachable (capacity : UInt32) : Exchange α → Prop where
  | start : Reachable capacity (start capacity)
  | step {x : Exchange α} (prior : Reachable capacity x) (turn : Turn α) :
      Reachable capacity (x.step turn).2
  | clear {x : Exchange α} (prior : Reachable capacity x) (hPushing : x.pushing = .idle)
      (hPulling : x.pulling = .idle) : Reachable capacity { x with ring := x.ring.clear }

variable {x y : Exchange α} {log more : List (Outcome α)} {waiting waiting' : List (UInt32 × α)}

/-- What can be reached from a reachable state is reachable. -/
theorem Reachable.run (reachable : Reachable capacity x) (schedule : List (Turn α)) :
    Reachable capacity (x.run schedule).2 := by
  induction schedule generalizing x with
  | nil => exact reachable
  | cons turn rest ih => exact ih (reachable.step turn)

theorem run_append (x : Exchange α) (earlier later : List (Turn α)) : x.run (earlier ++ later) =
    ((x.run earlier).1 ++ ((x.run earlier).2.run later).1, ((x.run earlier).2.run later).2) := by
  induction earlier generalizing x with
  | nil => rfl
  | cons turn rest ih => simp only [List.cons_append, run, ih, List.append_assoc]

namespace Tracks

/-- The elements that were published are those that have been taken and those that wait. -/
theorem length_placed (tracks : x.Tracks log waiting) :
    (placed log).length = (taken log).length + waiting.length := by
  obtain ⟨gone, hPlaced, hGone⟩ := tracks.placed_eq
  rw [hPlaced, List.length_append, ← hGone, List.length_map]

theorem has (tracks : x.Tracks log waiting) : x.ring.Has waiting.length :=
  ⟨_, _, tracks.holds, List.length_map _⟩

/-- Clearing the ring is as good as pulling all that waits. -/
theorem clear (tracks : x.Tracks log waiting) (hPushing : x.pushing = .idle)
    (hPulling : x.pulling = .idle) : Tracks { x with ring := x.ring.clear }
      (log ++ waiting.map fun w => .pulled w.2) [] := by
  have hPut : placed (log ++ waiting.map fun w => .pulled w.2) = placed log := by
    have hNone : placed (waiting.map fun w => .pulled w.2) = [] := by
      simp [placed, Outcome.placed, List.flatMap_map]
    rw [placed, List.flatMap_append]
    exact (congrArg _ hNone).trans (List.append_nil _)
  have hGot : taken (log ++ waiting.map fun w => .pulled w.2) =
      taken log ++ waiting.map Prod.snd := by
    have hAll : taken (waiting.map fun w => .pulled w.2) = waiting.map Prod.snd := by
      simp [taken, Outcome.taken, List.flatMap_map, ← List.map_eq_flatMap]
    rw [taken, List.flatMap_append]
    exact congrArg _ hAll
  constructor
  case placed_eq =>
    obtain ⟨gone, hPlaced, hGone⟩ := tracks.placed_eq
    exact ⟨gone ++ waiting, by rw [hPut, hPlaced, List.append_nil],
      by rw [hGot, List.map_append, hGone]⟩
  case holds =>
    rw [hGot, List.length_append]
    exact tracks.holds.clear
  case slots => rfl
  case pushing => exact hPushing ▸ trivial
  case pulling => exact hPulling ▸ trivial

/-- What waits after a while is what waited before and what came, less what left. -/
theorem balance (tracks : x.Tracks log waiting) (after : y.Tracks (log ++ more) waiting') :
    waiting'.length + (taken more).length = waiting.length + (placed more).length := by
  have hBefore := tracks.length_placed
  have hAfter := after.length_placed
  rw [placed, taken, List.flatMap_append, List.flatMap_append, List.length_append,
    List.length_append] at hAfter
  change (placed log).length + (placed more).length =
    (taken log).length + (taken more).length + _ at hAfter
  omega

section Seen

variable (tracks : x.Tracks log waiting) (after : y.Tracks (log ++ more) waiting')
  (hCapacity : y.ring.capacity = x.ring.capacity)

include tracks after hCapacity

/-- The cursor of the producer at the second load, counted from that of the consumer at the
first. -/
theorem producer_seen : y.ring.producer = Cursor.after x.ring.capacity
    ((taken log).length + (waiting.length + (placed more).length)) := by
  have hBalance := tracks.balance after
  rw [after.producer_eq, hCapacity, taken, List.flatMap_append, List.length_append]
  change Cursor.after _ ((taken log).length + (taken more).length + _) = _
  congr 1
  omega

/-- A query finds the ring empty if what was held and what has come since make up an even number of
laps. -/
theorem isEmpty_seen_iff : (seen x.ring y.ring).isEmpty = true ↔
    2 * x.ring.capacity.toNat ∣ waiting.length + (placed more).length := by
  rw [isEmpty, decide_eq_true_iff]
  change y.ring.producer = x.ring.consumer ↔ _
  rw [tracks.producer_seen after hCapacity, tracks.holds.consumer,
    tracks.holds.sized.after_add_eq_iff_dvd]

/-- A query finds what was held and what has come since, up to two laps, and at most the
capacity. -/
theorem toNat_len_seen : (seen x.ring y.ring).len.toNat = min x.ring.capacity.toNat
    ((waiting.length + (placed more).length) % (2 * x.ring.capacity.toNat)) := by
  have hDistance : (Cursor.distance x.ring.capacity y.ring.producer x.ring.consumer).toNat =
      (waiting.length + (placed more).length) % (2 * x.ring.capacity.toNat) := by
    rw [tracks.producer_seen after hCapacity, tracks.holds.consumer,
      tracks.holds.sized.toNat_distance_after_mod]
  change (Cursor.occupancy y.ring.capacity y.ring.producer x.ring.consumer).toNat = _
  rw [hCapacity, ← hDistance, Cursor.occupancy]
  split
  · next hOver => rw [Nat.min_eq_left (Nat.le_of_lt (UInt32.lt_iff_toNat_lt.mp hOver))]
  · next hWithin =>
      rw [Nat.min_eq_right (UInt32.le_iff_toNat_le.mp (UInt32.not_lt.mp hWithin))]

theorem len_seen_le : (seen x.ring y.ring).len ≤ x.ring.capacity := by
  rw [UInt32.le_iff_toNat_le, tracks.toNat_len_seen after hCapacity]
  exact Nat.min_le_left ..

/-- A query finds as free what its length leaves of the capacity. -/
theorem toNat_freeSpace_seen : (seen x.ring y.ring).freeSpace.toNat =
    x.ring.capacity.toNat - (seen x.ring y.ring).len.toNat := by
  have hLen := tracks.len_seen_le after hCapacity
  have hSeen : (seen x.ring y.ring).capacity = x.ring.capacity := hCapacity
  rw [freeSpace, hSeen, if_neg (UInt32.not_lt.mpr hLen), UInt32.toNat_sub_of_le _ _ hLen]

/-- Nothing that is computed from the two cursors leaves the 32 bits. -/
theorem inBounds_seen : (seen x.ring y.ring).InBounds := by
  apply inBounds_of_after
  · exact hCapacity ▸ tracks.holds.sized
  · exact after.producer_eq
  · exact hCapacity ▸ tracks.holds.consumer

end Seen
end Tracks

/-- Whatever has happened, the elements that wait are accounted for. -/
theorem Reachable.tracks (sized : Cursor.Sized capacity) (reachable : Reachable capacity x) :
    x.ring.capacity = capacity ∧ ∃ log waiting, x.Tracks log waiting := by
  induction reachable with
  | start => exact ⟨rfl, [], [], tracks_start sized⟩
  | step prior turn ih =>
      obtain ⟨hCapacity, log, waiting, tracks⟩ := ih
      obtain ⟨waiting', after⟩ := tracks.step turn
      exact ⟨(step_capacity _ turn).trans hCapacity, _, waiting', after⟩
  | clear prior hPushing hPulling ih =>
      obtain ⟨hCapacity, log, waiting, tracks⟩ := ih
      exact ⟨hCapacity, _, [], tracks.clear hPushing hPulling⟩

end Exchange
end TaskMemory.Ring

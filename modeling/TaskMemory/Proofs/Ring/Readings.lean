import Mathlib.Data.List.Infix
import TaskMemory.Proofs.Ring.Promises

/-!
Readings of an observer that is neither the producer nor the consumer. Its two loads stand at two
instants, and both threads may go on in between. Cursors count through two laps only, so an empty
reading stands for any multiple of two laps, and elements that have left the ring since the first
load still count for the second. In a ring of more than one slot a reading can therefore say "empty"
or "full" though the ring was neither at any instant between the loads.
-/
namespace TaskMemory.Ring.Exchange

variable {α : Type} [Element α] {capacity : UInt32} {x y : Exchange α} {log : List (Outcome α)}
  {waiting : List (UInt32 × α)} {n m : Nat}

/-- At some instant of this stretch of the traffic, its two ends included, the ring held so many
elements. -/
def Once (x : Exchange α) (between : List (Turn α)) (n : Nat) : Prop :=
  ∃ past, past <+: between ∧ (x.run past).2.ring.Has n

/-- An observer that finds the ring empty is right: the ring was empty at some instant between the
two loads. -/
def EmptyReadingsRight (α : Type) [Element α] (capacity : UInt32) : Prop :=
  ∀ x : Exchange α, Reachable capacity x → ∀ between,
    (seen x.ring (x.run between).2.ring).isEmpty = true → x.Once between 0

/-- An observer that finds the ring full is right. -/
def FullReadingsRight (α : Type) [Element α] (capacity : UInt32) : Prop :=
  ∀ x : Exchange α, Reachable capacity x → ∀ between,
    (seen x.ring (x.run between).2.ring).len = capacity → x.Once between capacity.toNat

/-- What the ring holds at the first load it holds at some moment. -/
theorem once_start (has : x.ring.Has n) (between : List (Turn α)) : x.Once between n :=
  ⟨[], List.nil_prefix, has⟩

theorem once_end {between : List (Turn α)} (has : (x.run between).2.ring.Has n) :
    x.Once between n :=
  ⟨between, List.prefix_rfl, has⟩

theorem Once.cons {turn : Turn α} {between : List (Turn α)}
    (once : (x.step turn).2.Once between n) : x.Once (turn :: between) n := by
  obtain ⟨past, hPast, has⟩ := once
  exact ⟨turn :: past, List.cons_prefix_cons.mpr ⟨rfl, hPast⟩, has⟩

/-- The number of elements after a while, from what came and went. -/
theorem Tracks.balance_has (tracks : x.Tracks log waiting) {past : List (Turn α)}
    (has : (x.run past).2.ring.Has n) :
    n + (taken (x.run past).1).length = waiting.length + (placed (x.run past).1).length := by
  obtain ⟨waiting', after⟩ := tracks.run past
  rw [has.unique after.has]
  exact tracks.balance after

/-- An element that is published meets a ring with room for it. -/
theorem Tracks.once_of_placed (tracks : x.Tracks log waiting) {between : List (Turn α)}
    (hPlaced : placed (x.run between).1 ≠ []) :
    ∃ n < x.ring.capacity.toNat, x.Once between n ∧ x.Once between (n + 1) := by
  induction between generalizing x log waiting with
  | nil => exact absurd rfl hPlaced
  | cons turn rest ih =>
      obtain ⟨waiting', after, hCounts⟩ := tracks.step_counts turn
      by_cases hRest : placed ((x.step turn).2.run rest).1 = []
      · -- The one element is published by the first step.
        have hFirst : (x.step turn).1.toList.flatMap Outcome.placed ≠ [] := by
          intro hNone
          refine hPlaced ?_
          change placed ((x.step turn).1.toList ++ ((x.step turn).2.run rest).1) = []
          rw [placed, List.flatMap_append]
          exact List.append_eq_nil_iff.mpr ⟨hNone, hRest⟩
        have hLast := after.length_le
        rw [x.step_capacity] at hLast
        cases hStep : (x.step turn).1 with
        | none => exact absurd (by rw [hStep]; rfl) hFirst
        | some o =>
            rw [hStep] at hCounts hFirst
            cases o with
            | accepted slot a =>
                have hMore : waiting'.length = waiting.length + 1 := hCounts
                exact ⟨waiting.length, by omega, once_start tracks.has _,
                  (once_start (hMore ▸ after.has) rest).cons⟩
            | refused => exact absurd rfl hFirst
            | pulled a => exact absurd rfl hFirst
            | missed => exact absurd rfl hFirst
      · obtain ⟨n, hn, hBefore, hAfter⟩ := ih after hRest
        rw [x.step_capacity] at hn
        exact ⟨n, hn, hBefore.cons, hAfter.cons⟩

/-- An empty reading is right unless as many elements as fit into two laps were in the ring or came
before the second load. -/
theorem Tracks.once_empty_of_lt (tracks : x.Tracks log waiting) {between : List (Turn α)}
    (hFew : waiting.length + (placed (x.run between).1).length < 2 * x.ring.capacity.toNat)
    (hEmpty : (seen x.ring (x.run between).2.ring).isEmpty = true) : x.Once between 0 := by
  obtain ⟨waiting', after⟩ := tracks.run between
  have hDvd := (tracks.isEmpty_seen_iff after (x.run_capacity between)).mp hEmpty
  have hNone := Nat.eq_zero_of_dvd_of_lt hDvd hFew
  have hStart : waiting.length = 0 := by omega
  exact once_start (hStart ▸ tracks.has) between

/-- A full reading is right unless a pull is completed between the loads. -/
theorem Tracks.once_full_of_taken (tracks : x.Tracks log waiting) {between : List (Turn α)}
    (hKept : taken (x.run between).1 = [])
    (hFull : (seen x.ring (x.run between).2.ring).len = x.ring.capacity) :
    x.Once between x.ring.capacity.toNat := by
  obtain ⟨waiting', after⟩ := tracks.run between
  have hCapacity := x.run_capacity between
  have hBalance := tracks.balance after
  have hLen := tracks.toNat_len_seen after hCapacity
  have hLe := after.length_le
  have hPos := tracks.holds.sized.pos
  rw [hKept, List.length_nil, Nat.add_zero] at hBalance
  rw [hCapacity] at hLe
  rw [hFull, ← hBalance, Nat.mod_eq_of_lt (by omega)] at hLen
  have hEnd : waiting'.length = x.ring.capacity.toNat := by omega
  exact once_end (hEnd ▸ after.has)

/-- A ring of one element that is found empty was empty at some moment. -/
theorem Tracks.once_empty_of_one (tracks : x.Tracks log waiting)
    (hOne : x.ring.capacity.toNat = 1) {between : List (Turn α)}
    (hEmpty : (seen x.ring (x.run between).2.ring).isEmpty = true) : x.Once between 0 := by
  by_cases hPlaced : placed (x.run between).1 = []
  · have hLe := tracks.length_le
    refine tracks.once_empty_of_lt ?_ hEmpty
    rw [hPlaced, List.length_nil]
    omega
  · obtain ⟨n, hn, once, -⟩ := tracks.once_of_placed hPlaced
    obtain rfl : n = 0 := by omega
    exact once

/-- A ring of one element that is found full was full at some moment. -/
theorem Tracks.once_full_of_one (tracks : x.Tracks log waiting)
    (hOne : x.ring.capacity.toNat = 1) {between : List (Turn α)}
    (hFull : (seen x.ring (x.run between).2.ring).len = x.ring.capacity) :
    x.Once between x.ring.capacity.toNat := by
  by_cases hPlaced : placed (x.run between).1 = []
  · obtain ⟨waiting', after⟩ := tracks.run between
    have hLen := tracks.toNat_len_seen after (x.run_capacity between)
    have hLe := tracks.length_le
    rw [hPlaced, List.length_nil, Nat.add_zero, hFull, Nat.mod_eq_of_lt (by omega)] at hLen
    have hStart : waiting.length = x.ring.capacity.toNat := by omega
    exact once_start (hStart ▸ tracks.has) between
  · obtain ⟨n, hn, -, once⟩ := tracks.once_of_placed hPlaced
    have hLast : n + 1 = x.ring.capacity.toNat := by omega
    exact hLast ▸ once

theorem Once.of_append {between more : List (Turn α)} (once : x.Once (between ++ more) n) :
    x.Once between n ∨ (x.run between).2.Once more n := by
  obtain ⟨past, hPast, has⟩ := once
  rcases List.prefix_or_prefix_of_prefix hPast (List.prefix_append between more) with
    hEarly | ⟨rest, rfl⟩
  · exact .inl ⟨past, hEarly, has⟩
  · rw [run_append] at has
    exact .inr ⟨rest, List.prefix_append_right_inj between |>.mp hPast, has⟩

/-- In a stretch of the traffic, the number of elements is off what it was at first by some of those
that come and some of those that leave. -/
theorem Tracks.of_once (tracks : x.Tracks log waiting) {between : List (Turn α)}
    (once : x.Once between n) :
    ∃ came ≤ (placed (x.run between).1).length, ∃ left ≤ (taken (x.run between).1).length,
      n + left = waiting.length + came := by
  obtain ⟨past, ⟨rest, rfl⟩, has⟩ := once
  have hBalance := tracks.balance_has has
  have hPlaced : placed (x.run past).1 <+: placed (x.run (past ++ rest)).1 := by
    rw [run_append, placed, placed, List.flatMap_append]
    exact List.prefix_append ..
  have hTaken : taken (x.run past).1 <+: taken (x.run (past ++ rest)).1 := by
    rw [run_append, taken, taken, List.flatMap_append]
    exact List.prefix_append ..
  exact ⟨_, hPlaced.length_le, _, hTaken.length_le, hBalance⟩

/-- A point without a call under way, with so many elements in the ring. -/
structure Rests (capacity : UInt32) (n : Nat) (x : Exchange α) : Prop where
  reachable : Reachable capacity x
  pushing : x.pushing = .idle
  pulling : x.pulling = .idle
  has : x.ring.Has n

/-- A stretch of the traffic that publishes `count` elements and leads to a rest with `n` in the
ring, which never holds a number of them without the property `P`. -/
structure Stretch (capacity : UInt32) (P : Nat → Prop) (x : Exchange α) (turns : List (Turn α))
    (count n : Nat) : Prop where
  rests : Rests capacity n (x.run turns).2
  placed : (placed (x.run turns).1).length = count
  always : ∀ m, x.Once turns m → P m

variable {P : Nat → Prop} {turns more : List (Turn α)} {count count' : Nat}

theorem Stretch.append (first : Stretch capacity P x turns count n)
    (second : Stretch capacity P (x.run turns).2 more count' m) :
    Stretch capacity P x (turns ++ more) (count + count') m where
  rests := by
    rw [run_append]
    exact second.rests
  placed := by
    rw [run_append, Ring.placed, List.flatMap_append, List.length_append]
    exact congrArg₂ _ first.placed second.placed
  always := fun k once => once.of_append.elim (first.always k) (second.always k)

namespace Rests

theorem tracks (sized : Cursor.Sized capacity) (rests : Rests capacity n x) :
    x.ring.capacity = capacity ∧ ∃ log waiting, x.Tracks log waiting ∧ waiting.length = n := by
  obtain ⟨hCapacity, log, waiting, tracks⟩ := rests.reachable.tracks sized
  exact ⟨hCapacity, log, waiting, tracks, tracks.has.unique rests.has⟩

/-- A push that nobody interrupts. -/
theorem push (sized : Cursor.Sized capacity) (rests : Rests capacity n x)
    (hRoom : n < capacity.toNat) (hBefore : P n) (hAfter : P (n + 1)) :
    ∃ turns, Stretch capacity P x turns 1 (n + 1) := by
  obtain ⟨rfl, log, waiting, tracks, rfl⟩ := rests.tracks sized
  obtain ⟨steps, hRun⟩ := x.run_push rests.pushing default
  obtain ⟨hAccepted, holds⟩ := tracks.holds.push_of_room (a := default) (by rwa [List.length_map])
  have hReached := rests.reachable.run (List.replicate steps (.producer default))
  rw [if_pos hAccepted] at hRun
  refine ⟨List.replicate steps (.producer default), ?_, ?_, ?_⟩
  · rw [hRun] at hReached ⊢
    refine ⟨hReached, rests.pushing, rests.pulling, _, _, holds, ?_⟩
    rw [List.length_append, List.length_map, List.length_singleton]
  · rw [hRun]
    rfl
  · intro m once
    obtain ⟨came, hCame, left, hLeft, hCount⟩ := tracks.of_once once
    rw [hRun] at hCame hLeft
    change came ≤ 1 at hCame
    change left ≤ 0 at hLeft
    obtain rfl | rfl : m = waiting.length ∨ m = waiting.length + 1 := by omega
    · exact hBefore
    · exact hAfter

/-- A pull that nobody interrupts. -/
theorem pull (sized : Cursor.Sized capacity) (rests : Rests capacity (n + 1) x)
    (hBefore : P (n + 1)) (hAfter : P n) : ∃ turns, Stretch capacity P x turns 0 n := by
  obtain ⟨rfl, log, waiting, tracks, hWaiting⟩ := rests.tracks sized
  obtain ⟨oldest, others, rfl⟩ := List.exists_cons_of_length_eq_add_one hWaiting
  obtain ⟨steps, hRun⟩ := x.run_pull rests.pulling
  obtain ⟨hPulled, holds⟩ := tracks.holds.pull_cons rfl
  have hReached := rests.reachable.run (List.replicate steps .consumer)
  rw [hPulled, Option.elim_some] at hRun
  refine ⟨List.replicate steps .consumer, ?_, ?_, ?_⟩
  · rw [hRun] at hReached ⊢
    refine ⟨hReached, rests.pushing, rests.pulling, _, _, holds, ?_⟩
    rw [List.length_map, Nat.succ.inj hWaiting]
  · rw [hRun]
    rfl
  · intro m once
    obtain ⟨came, hCame, left, hLeft, hCount⟩ := tracks.of_once once
    rw [hRun] at hCame hLeft
    change came ≤ 0 at hCame
    change left ≤ 1 at hLeft
    obtain rfl | rfl : m = n + 1 ∨ m = n := by omega
    · exact hBefore
    · exact hAfter

/-- A ring can hold any number of elements up to its capacity. -/
theorem exists_rests (sized : Cursor.Sized capacity) :
    ∀ n ≤ capacity.toNat, ∃ x : Exchange α, Rests capacity n x := by
  intro n hLe
  induction n with
  | zero => exact ⟨start capacity, .start, rfl, rfl, 0, [], holds_nil sized, rfl⟩
  | succ n ih =>
      obtain ⟨x, rests⟩ := ih (Nat.le_of_succ_le hLe)
      obtain ⟨turns, stretch⟩ := rests.push sized hLe (P := fun _ => True) trivial trivial
      exact ⟨_, stretch.rests⟩

/-- Pushes and pulls in turn, each round an element more published: with two slots, the ring need
not become empty. -/
theorem rounds (sized : Cursor.Sized capacity) (hTwo : 1 < capacity.toNat)
    (rests : Rests capacity 1 x) (k : Nat) : ∃ turns, Stretch capacity (0 < ·) x turns k 1 := by
  induction k with
  | zero =>
      refine ⟨[], rests, rfl, fun m once => ?_⟩
      obtain ⟨past, hPast, has⟩ := once
      obtain rfl := List.prefix_nil.mp hPast
      exact (has.unique rests.has) ▸ Nat.one_pos
  | succ k ih =>
      obtain ⟨turns, sofar⟩ := ih
      obtain ⟨pushing, pushed⟩ := sofar.rests.push sized hTwo Nat.one_pos (Nat.succ_pos 1)
      obtain ⟨pulling, pulled⟩ := pushed.rests.pull sized (Nat.succ_pos 1) Nat.one_pos
      exact ⟨_, sofar.append (pushed.append pulled)⟩

end Rests

/-- With more than one slot, two laps of elements can come one by one while the ring always holds
one: the cursors are equal again. -/
theorem not_emptyReadingsRight (sized : Cursor.Sized capacity) (hTwo : 1 < capacity.toNat) :
    ¬ EmptyReadingsRight α capacity := by
  intro hRight
  obtain ⟨x, rests⟩ := Rests.exists_rests (α := α) sized 1 (Nat.le_of_lt hTwo)
  obtain ⟨between, stretch⟩ := rests.rounds sized hTwo (2 * capacity.toNat - 1)
  obtain ⟨hCapacity, log, waiting, tracks, hOne⟩ := rests.tracks sized
  obtain ⟨waiting', after⟩ := tracks.run between
  have hTotal : waiting.length + (placed (x.run between).1).length = 2 * x.ring.capacity.toNat := by
    rw [stretch.placed, hOne, hCapacity]
    omega
  have hEmpty := (tracks.isEmpty_seen_iff after (x.run_capacity between)).mpr
    (hTotal ▸ Nat.dvd_refl _)
  exact Nat.lt_irrefl 0 (stretch.always 0 (hRight x rests.reachable between hEmpty))

/-- With more than one slot, an element can leave before another one fills up what the first load
left open: the ring was one short of full all the time. -/
theorem not_fullReadingsRight (sized : Cursor.Sized capacity) (hTwo : 1 < capacity.toNat) :
    ¬ FullReadingsRight α capacity := by
  intro hRight
  obtain ⟨n, hSize⟩ := Nat.exists_eq_add_of_lt hTwo
  obtain ⟨x, rests⟩ := Rests.exists_rests (α := α) sized (n + 1) (by omega)
  obtain ⟨pulling, pulled⟩ := rests.pull sized (P := (· < capacity.toNat)) (by omega) (by omega)
  obtain ⟨pushing, pushed⟩ := pulled.rests.push sized (P := (· < capacity.toNat)) (by omega)
    (by omega) (by omega)
  have stretch := pulled.append pushed
  obtain ⟨hCapacity, log, waiting, tracks, hWaiting⟩ := rests.tracks sized
  obtain ⟨waiting', after⟩ := tracks.run (pulling ++ pushing)
  have hLen := tracks.toNat_len_seen after (x.run_capacity _)
  rw [stretch.placed, hWaiting, hCapacity, Nat.mod_eq_of_lt (by omega)] at hLen
  have hFull : (seen x.ring (x.run (pulling ++ pushing)).2.ring).len = capacity :=
    UInt32.toNat_inj.mp (by omega)
  exact Nat.lt_irrefl _ (stretch.always _ (hRight x rests.reachable _ hFull))

/-- An observer is sure to be right about an empty or a full ring only if the ring has one slot. In
a larger one an empty reading is right as long as fewer elements than two laps come together, and a
full one as long as none leaves between the loads. -/
theorem readings_right_iff (sized : Cursor.Sized capacity) :
    (EmptyReadingsRight α capacity ↔ capacity = 1) ∧
    (FullReadingsRight α capacity ↔ capacity = 1) ∧
    ∀ x : Exchange α, Reachable capacity x → ∀ count, x.ring.Has count → ∀ between,
      (count + (placed (x.run between).1).length < 2 * capacity.toNat →
        (seen x.ring (x.run between).2.ring).isEmpty = true → x.Once between 0) ∧
      (taken (x.run between).1 = [] →
        (seen x.ring (x.run between).2.ring).len = capacity → x.Once between capacity.toNat) := by
  have hPos := sized.pos
  have hOne : capacity = 1 ↔ capacity.toNat = 1 := UInt32.toNat_inj.symm
  refine ⟨⟨fun hRight => ?_, fun h x reachable between hEmpty => ?_⟩,
    ⟨fun hRight => ?_, fun h x reachable between hFull => ?_⟩,
    fun x reachable count has between => ⟨fun hFew hEmpty => ?_, fun hKept hFull => ?_⟩⟩
  · by_contra hMany
    have hNotOne := mt hOne.mpr hMany
    exact not_emptyReadingsRight sized (by omega) hRight
  · obtain ⟨rfl, log, waiting, tracks⟩ := reachable.tracks sized
    exact tracks.once_empty_of_one (hOne.mp h) hEmpty
  · by_contra hMany
    have hNotOne := mt hOne.mpr hMany
    exact not_fullReadingsRight sized (by omega) hRight
  · obtain ⟨rfl, log, waiting, tracks⟩ := reachable.tracks sized
    exact tracks.once_full_of_one (hOne.mp h) hFull
  · obtain ⟨rfl, log, waiting, tracks⟩ := reachable.tracks sized
    exact tracks.once_empty_of_lt (has.unique tracks.has ▸ hFew) hEmpty
  · obtain ⟨rfl, log, waiting, tracks⟩ := reachable.tracks sized
    exact tracks.once_full_of_taken hKept hFull

/-- Readings of a ring of one element are right. Those of a ring of two may be wrong. -/
theorem readings_right_iff_small : Cursor.Sized 1 ∧ EmptyReadingsRight UInt8 1 ∧
    FullReadingsRight UInt8 1 ∧ Cursor.Sized 2 ∧ ¬ EmptyReadingsRight UInt8 2 ∧
    ¬ FullReadingsRight UInt8 2 := by
  have sized : Cursor.Sized 1 := ⟨by decide, by decide⟩
  have sized' : Cursor.Sized 2 := ⟨by decide, by decide⟩
  obtain ⟨hEmpty, hFull, -⟩ := readings_right_iff (α := UInt8) sized
  obtain ⟨hEmpty', hFull', -⟩ := readings_right_iff (α := UInt8) sized'
  exact ⟨sized, hEmpty.mpr rfl, hFull.mpr rfl, sized', fun h => absurd (hEmpty'.mp h) (by decide),
    fun h => absurd (hFull'.mp h) (by decide)⟩

/-- It was never so if it was not so after any number of the turns. -/
theorem not_once {between : List (Turn α)}
    (h : ∀ past ∈ between.inits, (x.run past).2.ring.len.toNat ≠ n) : ¬ x.Once between n := by
  rintro ⟨past, hPast, has⟩
  exact h past ((List.mem_inits past between).mpr hPast) has.toNat_len

/-- A ring of two slots with one element in it. -/
def one : Exchange UInt8 := ((start 2).run (List.replicate 4 (.producer 1))).2

/-- Three elements more come, one leaves after each. -/
def lap : List (Turn UInt8) :=
  (List.replicate 3 (List.replicate 4 (.producer 2) ++ List.replicate 4 .consumer)).flatten

/-- The element leaves, another one comes. -/
def swap : List (Turn UInt8) := List.replicate 4 .consumer ++ List.replicate 4 (.producer 2)

/-- An observer of a ring of two slots reads "empty" though it was never empty, and "full" though it
was never full. -/
theorem torn_readings : Cursor.Sized 2 ∧ Reachable 2 one ∧
    ((seen one.ring (one.run lap).2.ring).isEmpty = true ∧
      (seen one.ring (one.run lap).2.ring).caughtUp = true ∧ ¬ one.Once lap 0) ∧
    (seen one.ring (one.run swap).2.ring).len = 2 ∧ ¬ one.Once swap 2 :=
  ⟨⟨by decide, by decide⟩, Reachable.start.run _,
    ⟨by decide +kernel, by decide +kernel, not_once (by decide +kernel)⟩,
    by decide +kernel, not_once (by decide +kernel)⟩

end TaskMemory.Ring.Exchange

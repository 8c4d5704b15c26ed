import TaskMemory.Proofs.Ring.Contents
import TaskMemory.Proofs.Ring.Interleaving

/-!
What goes from a producer to a consumer through a ring, however their steps interleave. The
invariant `Exchange.Tracks` splits the published elements into those that have been taken and those
that wait in the ring, and says for each thread that what it has loaded still holds good: its own
cursor has no other writer, and the other one's cursor only moves in its favour.
-/
namespace TaskMemory.Ring

variable {α : Type}

/-- The element that an outcome publishes, with the slot it was written to. -/
def Outcome.placed : Outcome α → List (UInt32 × α)
  | .accepted slot a => [(slot, a)]
  | .refused | .pulled _ | .missed => []

def Outcome.taken : Outcome α → List α
  | .pulled a => [a]
  | .accepted .. | .refused | .missed => []

/-- The elements of the accepted pushes, each with its slot. -/
def placed (log : List (Outcome α)) : List (UInt32 × α) := log.flatMap Outcome.placed

def published (log : List (Outcome α)) : List α := (placed log).map Prod.snd

/-- The elements of the completed pulls. -/
def taken (log : List (Outcome α)) : List α := log.flatMap Outcome.taken

/-- The published elements that have not been taken, each with its slot. -/
def unpulled (log : List (Outcome α)) : List (UInt32 × α) := (placed log).drop (taken log).length

theorem placed_concat (log : List (Outcome α)) (o : Outcome α) :
    placed (log ++ [o]) = placed log ++ o.placed := by
  rw [placed, List.flatMap_append, List.flatMap_singleton, placed]

theorem taken_concat (log : List (Outcome α)) (o : Outcome α) :
    taken (log ++ [o]) = taken log ++ o.taken := by
  rw [taken, List.flatMap_append, List.flatMap_singleton, taken]

variable [Element α]

/-- What a producer has loaded and done so far is right for a ring with so many elements. -/
def Pushing.Fits (r : Ring α) (count : Nat) : Pushing α → Prop
  | .idle => True
  | .begun _ p => p = r.producer
  | .granted _ p => p = r.producer ∧ count < r.capacity.toNat
  | .written a p => p = r.producer ∧ count < r.capacity.toNat ∧
      r.slots.getD (Cursor.slot r.capacity p) default = a

/-- What a consumer has loaded so far is right for a ring with these elements. -/
def Pulling.Fits (r : Ring α) (waiting : List α) : Pulling α → Prop
  | .idle => True
  | .begun c => c = r.consumer
  | .granted c => c = r.consumer ∧ waiting ≠ []
  | .fetched a c => c = r.consumer ∧ waiting.head? = some a

namespace Exchange

/-- The published elements are the ones taken and then the ones in the ring, which lie in the slots
they were written to. -/
structure Tracks (x : Exchange α) (log : List (Outcome α)) (waiting : List (UInt32 × α)) :
    Prop where
  placed_eq : ∃ gone, placed log = gone ++ waiting ∧ gone.map Prod.snd = taken log
  holds : x.ring.Holds (taken log).length (waiting.map Prod.snd)
  slots : waiting.map Prod.fst = (List.range' (taken log).length waiting.length).map fun n =>
    Cursor.slot x.ring.capacity (Cursor.after x.ring.capacity n)
  pushing : x.pushing.Fits x.ring waiting.length
  pulling : x.pulling.Fits x.ring (waiting.map Prod.snd)

theorem tracks_start {capacity : UInt32} (sized : Cursor.Sized capacity) :
    (start capacity : Exchange α).Tracks [] [] where
  placed_eq := ⟨[], rfl, rfl⟩
  holds := holds_nil sized
  slots := rfl
  pushing := trivial
  pulling := trivial

variable {x : Exchange α} {log : List (Outcome α)} {waiting : List (UInt32 × α)}

namespace Tracks

variable (tracks : x.Tracks log waiting)

include tracks

/-- The cursor of the producer has gone past all that was taken and all that waits. -/
theorem producer_eq : x.ring.producer =
    Cursor.after x.ring.capacity ((taken log).length + waiting.length) := by
  rw [tracks.holds.producer, List.length_map]

theorem length_le : waiting.length ≤ x.ring.capacity.toNat :=
  (List.length_map Prod.snd).symm.trans_le tracks.holds.length_le

theorem full_iff : Cursor.distance x.ring.capacity x.ring.producer x.ring.consumer =
    x.ring.capacity ↔ waiting.length = x.ring.capacity.toNat := by
  rw [tracks.holds.full_iff, List.length_map]

theorem empty_iff : x.ring.producer = x.ring.consumer ↔ waiting = [] := by
  rw [tracks.holds.empty_iff, List.map_eq_nil_iff]

/-- What was placed and not taken is what waits. -/
theorem unpulled_eq : unpulled log = waiting := by
  obtain ⟨gone, hPlaced, hGone⟩ := tracks.placed_eq
  rw [unpulled, hPlaced, List.drop_left' (by rw [← hGone, List.length_map])]

/-- What was published has been taken or waits, in the same order. -/
theorem published_eq : published log = taken log ++ waiting.map Prod.snd := by
  obtain ⟨gone, hPlaced, hGone⟩ := tracks.placed_eq
  rw [published, hPlaced, List.map_append, hGone]

/-- None of the elements that wait lies in the slot that is written next. -/
theorem slot_producer_not_mem (hRoom : waiting.length < x.ring.capacity.toNat) :
    Cursor.slot x.ring.capacity x.ring.producer ∉ waiting.map Prod.fst := by
  rw [tracks.slots, List.mem_map]
  rintro ⟨n, hMem, hEq⟩
  obtain ⟨i, hi, rfl⟩ := List.mem_range'.mp hMem
  rw [Nat.one_mul] at hEq
  exact tracks.holds.slot_producer_ne (by rwa [List.length_map]) (by rwa [List.length_map]) hEq.symm

/-- The oldest element that waits lies in the slot that is read next. -/
theorem slot_consumer_mem (hWaiting : waiting ≠ []) :
    Cursor.slot x.ring.capacity x.ring.consumer ∈ waiting.map Prod.fst := by
  rw [tracks.slots, tracks.holds.consumer]
  exact List.mem_map_of_mem
    (List.mem_range'.mpr ⟨0, List.length_pos_iff.mpr hWaiting, (Nat.add_zero _).symm⟩)

/-- A stage of the producer in which nothing is published keeps the account. -/
theorem withPushing (pushing : Pushing α) (h : pushing.Fits x.ring waiting.length) :
    Tracks { x with pushing } log waiting :=
  ⟨tracks.placed_eq, tracks.holds, tracks.slots, h, tracks.pulling⟩

/-- A stage of the consumer in which nothing is taken keeps the account. -/
theorem withPulling (pulling : Pulling α) (h : pulling.Fits x.ring (waiting.map Prod.snd)) :
    Tracks { x with pulling } log waiting :=
  ⟨tracks.placed_eq, tracks.holds, tracks.slots, tracks.pushing, h⟩

/-- An outcome that moves no element. -/
theorem note {o : Outcome α} (hPlaced : o.placed = []) (hTaken : o.taken = []) :
    x.Tracks (log ++ [o]) waiting := by
  have hPut : placed (log ++ [o]) = placed log := by
    rw [placed_concat, hPlaced, List.append_nil]
  have hGot : taken (log ++ [o]) = taken log := by
    rw [taken_concat, hTaken, List.append_nil]
  constructor
  case placed_eq => rw [hPut, hGot]; exact tracks.placed_eq
  case holds => rw [hGot]; exact tracks.holds
  case slots => rw [hGot]; exact tracks.slots
  case pushing => exact tracks.pushing
  case pulling => exact tracks.pulling

/-- The producer writes the slot behind the elements that wait. The consumer reads none but theirs,
so this does not touch what it is about. -/
theorem write (hRoom : waiting.length < x.ring.capacity.toNat) (a : α) :
    Tracks { x with
      ring := { x.ring with
        slots := x.ring.slots.insert (Cursor.slot x.ring.capacity x.ring.producer) a }
      pushing := .written a x.ring.producer } log waiting where
  placed_eq := tracks.placed_eq
  holds := tracks.holds.write (by rwa [List.length_map]) a
  slots := tracks.slots
  pushing := ⟨rfl, hRoom, Std.HashMap.getD_insert_self⟩
  pulling := tracks.pulling

/-- The cursor of the producer passes the slot that was written, and from then on the element
waits. -/
theorem publish {a : α} (hRoom : waiting.length < x.ring.capacity.toNat)
    (hSlot : x.ring.slots.getD (Cursor.slot x.ring.capacity x.ring.producer) default = a) :
    Tracks { x with
      ring := { x.ring with producer := Cursor.advance x.ring.capacity x.ring.producer }
      pushing := .idle }
      (log ++ [.accepted (Cursor.slot x.ring.capacity x.ring.producer) a])
      (waiting ++ [(Cursor.slot x.ring.capacity x.ring.producer, a)]) := by
  have hGot (slot : UInt32) : taken (log ++ [.accepted slot a]) = taken log := by
    rw [taken_concat, Outcome.taken, List.append_nil]
  constructor
  case placed_eq =>
    obtain ⟨gone, hPlaced, hGone⟩ := tracks.placed_eq
    refine ⟨gone, ?_, hGone.trans (hGot _).symm⟩
    rw [placed_concat, Outcome.placed, hPlaced, List.append_assoc]
  case holds =>
    rw [hGot, List.map_append]
    exact tracks.holds.publish (by rwa [List.length_map]) hSlot
  case slots =>
    rw [hGot, List.map_append, List.length_append, List.length_singleton, List.range'_concat,
      List.map_append, tracks.slots, Nat.one_mul, tracks.producer_eq]
    rfl
  case pushing => trivial
  case pulling =>
    -- An element more behind the others leaves the oldest one as it is.
    have hPulling := tracks.pulling
    cases hPull : x.pulling with
    | idle => trivial
    | begun c =>
        rw [hPull] at hPulling
        exact hPulling
    | granted c =>
        rw [hPull] at hPulling
        exact ⟨hPulling.1, by simp⟩
    | fetched b c =>
        rw [hPull] at hPulling
        exact ⟨hPulling.1, by rw [List.map_append, List.head?_append, hPulling.2]; rfl⟩

/-- The cursor of the consumer passes the slot that was read, and from then on the element is
taken. -/
theorem leave {slot : UInt32} {a : α} {rest : List (UInt32 × α)}
    (hWaiting : waiting = (slot, a) :: rest) :
    Tracks { x with
      ring := { x.ring with consumer := Cursor.advance x.ring.capacity x.ring.consumer }
      pulling := .idle } (log ++ [.pulled a]) rest := by
  subst hWaiting
  have hPut : placed (log ++ [.pulled a]) = placed log := by
    rw [placed_concat, Outcome.placed, List.append_nil]
  have hGot : taken (log ++ [.pulled a]) = taken log ++ [a] := taken_concat log (.pulled a)
  have hCount : (taken (log ++ [.pulled a])).length = (taken log).length + 1 := by
    rw [hGot, List.length_append, List.length_singleton]
  constructor
  case placed_eq =>
    obtain ⟨gone, hPlaced, hGone⟩ := tracks.placed_eq
    refine ⟨gone ++ [(slot, a)], ?_, ?_⟩
    · rw [hPut, hPlaced, List.append_assoc, List.singleton_append]
    · rw [hGot, List.map_append, hGone]
      rfl
  case holds =>
    rw [hCount]
    exact tracks.holds.leave rfl
  case slots =>
    have hSlots := tracks.slots
    rw [List.length_cons, List.range'_succ, List.map_cons, List.map_cons] at hSlots
    rw [hCount]
    exact (List.cons.inj hSlots).2
  case pushing =>
    -- An element less leaves as much room as there was.
    have hPushing := tracks.pushing
    cases hPush : x.pushing with
    | idle => trivial
    | begun b p =>
        rw [hPush] at hPushing
        exact hPushing
    | granted b p =>
        rw [hPush] at hPushing
        exact ⟨hPushing.1, Nat.lt_of_succ_lt hPushing.2⟩
    | written b p =>
        rw [hPush] at hPushing
        exact ⟨hPushing.1, Nat.lt_of_succ_lt hPushing.2.1, hPushing.2.2⟩
  case pulling => trivial

/-- Every step of the producer keeps the account. -/
theorem produce (next : α) :
    ∃ waiting, (x.produce next).2.Tracks (log ++ (x.produce next).1.toList) waiting := by
  have hPushing := tracks.pushing
  cases hPush : x.pushing with
  | idle =>
      refine ⟨waiting, ?_⟩
      rw [produce_idle hPush, Option.toList_none, List.append_nil]
      exact tracks.withPushing _ rfl
  | begun a p =>
      rw [hPush] at hPushing
      obtain rfl : p = x.ring.producer := hPushing
      refine ⟨waiting, ?_⟩
      by_cases hFull : Cursor.distance x.ring.capacity x.ring.producer x.ring.consumer =
          x.ring.capacity
      · rw [produce_refused hPush hFull]
        exact (tracks.withPushing .idle trivial).note rfl rfl
      · rw [produce_granted hPush hFull, Option.toList_none, List.append_nil]
        exact tracks.withPushing _
          ⟨rfl, lt_of_le_of_ne tracks.length_le (mt tracks.full_iff.mpr hFull)⟩
  | granted a p =>
      rw [hPush] at hPushing
      obtain ⟨rfl, hRoom⟩ := hPushing
      refine ⟨waiting, ?_⟩
      rw [produce_write hPush, Option.toList_none, List.append_nil]
      exact tracks.write hRoom a
  | written a p =>
      rw [hPush] at hPushing
      obtain ⟨rfl, hRoom, hSlot⟩ := hPushing
      rw [produce_publish hPush]
      exact ⟨_, tracks.publish hRoom hSlot⟩

theorem consume : ∃ waiting, x.consume.2.Tracks (log ++ x.consume.1.toList) waiting := by
  have hPulling := tracks.pulling
  cases hPull : x.pulling with
  | idle =>
      refine ⟨waiting, ?_⟩
      rw [consume_idle hPull, Option.toList_none, List.append_nil]
      exact tracks.withPulling _ rfl
  | begun c =>
      rw [hPull] at hPulling
      obtain rfl : c = x.ring.consumer := hPulling
      refine ⟨waiting, ?_⟩
      by_cases hEmpty : x.ring.producer = x.ring.consumer
      · rw [consume_missed hPull hEmpty]
        exact (tracks.withPulling .idle trivial).note rfl rfl
      · rw [consume_granted hPull hEmpty, Option.toList_none, List.append_nil]
        have hWaiting : waiting ≠ [] := mt tracks.empty_iff.mpr hEmpty
        exact tracks.withPulling _ ⟨rfl, mt List.map_eq_nil_iff.mp hWaiting⟩
  | granted c =>
      rw [hPull] at hPulling
      obtain ⟨rfl, hWaiting⟩ := hPulling
      refine ⟨waiting, ?_⟩
      rw [consume_read hPull, Option.toList_none, List.append_nil]
      obtain ⟨a, rest, hCons⟩ := List.exists_cons_of_ne_nil hWaiting
      exact tracks.withPulling _ ⟨rfl, by rw [tracks.holds.slot_consumer hCons, hCons]; rfl⟩
  | fetched a c =>
      rw [hPull] at hPulling
      obtain ⟨rfl, hHead⟩ := hPulling
      rw [consume_leave hPull]
      cases waiting with
      | nil => cases hHead
      | cons first rest =>
          obtain rfl : first.2 = a := Option.some.inj hHead
          exact ⟨rest, tracks.leave rfl⟩

theorem step (turn : Turn α) :
    ∃ waiting, (x.step turn).2.Tracks (log ++ (x.step turn).1.toList) waiting := by
  cases turn with
  | producer next => exact tracks.produce next
  | consumer => exact tracks.consume

/-- The account is kept along every schedule, by induction from one turn to the next. -/
theorem run (schedule : List (Turn α)) :
    ∃ waiting, (x.run schedule).2.Tracks (log ++ (x.run schedule).1) waiting := by
  induction schedule generalizing x log waiting with
  | nil =>
      refine ⟨waiting, ?_⟩
      rw [Exchange.run, List.append_nil]
      exact tracks
  | cons turn rest ih =>
      obtain ⟨_, after⟩ := tracks.step turn
      obtain ⟨waiting, last⟩ := ih after
      refine ⟨waiting, ?_⟩
      rw [Exchange.run, ← List.append_assoc]
      exact last

end Tracks

/-- Nothing is lost, doubled or reordered on the way from the producer to the consumer, and neither
is turned away without cause. -/
structure Orderly (capacity : Nat) (log : List (Outcome α)) (x : Exchange α) : Prop where
  fifo : taken log <+: published log
  bounded : (unpulled log).length ≤ capacity
  /-- The slot about to be written holds no element that is still to be pulled. -/
  apart : ∀ a p, x.pushing = .granted a p →
    Cursor.slot x.ring.capacity p ∉ (unpulled log).map Prod.fst
  /-- The slot about to be written is not the one about to be read. -/
  disjoint : ∀ a p c, x.pushing = .granted a p → x.pulling = .granted c →
    Cursor.slot x.ring.capacity p ≠ Cursor.slot x.ring.capacity c
  /-- The load of the consumer's cursor refuses a push only if the ring is full at that load. -/
  refused : ∀ next, (x.produce next).1 = some .refused → (unpulled log).length = capacity
  /-- The load of the producer's cursor ends a pull only if the ring is empty at that load. -/
  missed : x.consume.1 = some .missed → unpulled log = []

namespace Tracks

variable (tracks : x.Tracks log waiting)

include tracks

/-- A push is refused only if the cursors are a capacity apart. -/
theorem full_of_refused {next : α} (h : (x.produce next).1 = some .refused) :
    Cursor.distance x.ring.capacity x.ring.producer x.ring.consumer = x.ring.capacity := by
  have hPushing := tracks.pushing
  cases hPush : x.pushing with
  | idle => rw [produce_idle hPush] at h; cases h
  | begun a p =>
      rw [hPush] at hPushing
      obtain rfl : p = x.ring.producer := hPushing
      by_contra hRoom
      rw [produce_granted hPush hRoom] at h
      cases h
  | granted a p => rw [produce_write hPush] at h; cases h
  | written a p => rw [produce_publish hPush] at h; cases h

/-- A pull comes back empty only if the cursors meet. -/
theorem empty_of_missed (h : x.consume.1 = some .missed) :
    x.ring.producer = x.ring.consumer := by
  have hPulling := tracks.pulling
  cases hPull : x.pulling with
  | idle => rw [consume_idle hPull] at h; cases h
  | begun c =>
      rw [hPull] at hPulling
      obtain rfl : c = x.ring.consumer := hPulling
      by_contra hMore
      rw [consume_granted hPull hMore] at h
      cases h
  | granted c => rw [consume_read hPull] at h; cases h
  | fetched a c => rw [consume_leave hPull] at h; cases h

/-- What the account says about the elements, the slots and the cursors. -/
theorem orderly : Orderly x.ring.capacity.toNat log x := by
  have hFits (a p) (h : x.pushing = .granted a p) :
      p = x.ring.producer ∧ waiting.length < x.ring.capacity.toNat := by
    have hPushing := tracks.pushing
    rwa [h] at hPushing
  rw [← tracks.unpulled_eq] at *
  constructor
  case fifo =>
    rw [tracks.published_eq]
    exact List.prefix_append _ _
  case bounded => exact tracks.length_le
  case apart =>
    intro a p hPush
    obtain ⟨rfl, hRoom⟩ := hFits a p hPush
    exact tracks.slot_producer_not_mem hRoom
  case disjoint =>
    intro a p c hPush hPull hEq
    obtain ⟨rfl, hRoom⟩ := hFits a p hPush
    have hPulling := tracks.pulling
    rw [hPull] at hPulling
    obtain ⟨rfl, hWaiting⟩ := hPulling
    exact tracks.slot_producer_not_mem hRoom
      (hEq ▸ tracks.slot_consumer_mem (mt List.map_eq_nil_iff.mpr hWaiting))
  case refused => exact fun next h => tracks.full_iff.mp (tracks.full_of_refused h)
  case missed => exact fun h => tracks.empty_iff.mp (tracks.empty_of_missed h)

end Tracks

/-- A ring of any capacity hands elements over in order, at every point of every schedule. -/
theorem run_orderly (capacity : UInt32) (sized : Cursor.Sized capacity) :
    (∀ env, ∃ env', create ⟨capacity⟩ env = .ok ((start capacity : Exchange α).ring, env')) ∧
    ∀ schedule : List (Turn α),
      Orderly capacity.toNat ((start capacity).run schedule).1
        ((start capacity).run schedule).2 := by
  refine ⟨fun env => ⟨_, create_eq (Cursor.validate_eq_ok_iff.mpr sized) env⟩, fun schedule => ?_⟩
  obtain ⟨waiting, tracks⟩ := (tracks_start (α := α) sized).run schedule
  have hOrderly := tracks.orderly
  rwa [run_capacity, List.nil_append] at hOrderly

/-- In a ring of one slot the producer is refused between the two loads of the consumer and its
read, and goes on with another element once the slot has been given up. -/
def single : List (Turn UInt8) :=
  List.replicate 4 (.producer 7) ++ List.replicate 2 .consumer ++ List.replicate 2 (.producer 8) ++
    List.replicate 2 .consumer ++ List.replicate 4 (.producer 9)

theorem run_orderly_single : Cursor.Sized 1 ∧
    ((start 1).run single).1 = [.accepted 0 7, .refused, .pulled 7, .accepted 0 9] ∧
    Orderly 1 ((start 1).run single).1 ((start 1).run single).2 :=
  ⟨⟨by decide, by decide⟩, by decide +kernel, (run_orderly 1 ⟨by decide, by decide⟩).2 single⟩

end Exchange
end TaskMemory.Ring

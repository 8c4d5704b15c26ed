import TaskMemory.Proofs.Ring.Laps
import TaskMemory.Ring.Basic

/-!
The elements that a ring holds. `Holds` reads them off the cursors and the slots between them,
together with the number of elements that have gone before; what each write of a cursor or a slot
does to the elements is a lemma about it.
-/
namespace TaskMemory.Ring

variable {α : Type} [Element α] {r : Ring α} {passed : Nat} {elements : List α} {a : α}

/-- The ring holds these elements, the oldest one first, after so many others that have left it. A
slot outside the window between the cursors may hold anything. -/
structure Holds (r : Ring α) (passed : Nat) (elements : List α) : Prop where
  sized : Cursor.Sized r.capacity
  length_le : elements.length ≤ r.capacity.toNat
  producer : r.producer = Cursor.after r.capacity (passed + elements.length)
  consumer : r.consumer = Cursor.after r.capacity passed
  slots : ∀ i (h : i < elements.length),
    r.slots.getD (Cursor.slot r.capacity (Cursor.after r.capacity (passed + i))) default =
      elements[i]

/-- The cursors and the slots they name lie within the ring, and no number that is computed from
them leaves the 32 bits. -/
structure InBounds (r : Ring α) : Prop where
  producer_lt : r.producer.toNat < 2 * r.capacity.toNat
  consumer_lt : r.consumer.toNat < 2 * r.capacity.toNat
  slot_producer_lt : Cursor.slot r.capacity r.producer < r.capacity
  slot_consumer_lt : Cursor.slot r.capacity r.consumer < r.capacity
  twice_lt : r.capacity.toNat * 2 < UInt32.size
  succ_producer_lt : r.producer.toNat + 1 < UInt32.size
  succ_consumer_lt : r.consumer.toNat + 1 < UInt32.size
  sum_lt : r.producer.toNat + r.capacity.toNat * 2 < UInt32.size
  le_sum : r.consumer.toNat ≤ r.producer.toNat + r.capacity.toNat * 2

omit [Element α] in
/-- Cursors that have come forward step by step are in bounds. -/
theorem inBounds_of_after (sized : Cursor.Sized r.capacity) {p c : Nat}
    (hProducer : r.producer = Cursor.after r.capacity p)
    (hConsumer : r.consumer = Cursor.after r.capacity c) : r.InBounds := by
  have hProducerLt := sized.toNat_after_lt p
  have hConsumerLt := sized.toNat_after_lt c
  have hLe := sized.le
  rw [← hProducer] at hProducerLt
  rw [← hConsumer] at hConsumerLt
  have hSize : UInt32.size = 2 ^ 32 := rfl
  constructor
  case producer_lt => exact hProducerLt
  case consumer_lt => exact hConsumerLt
  case slot_producer_lt =>
    rw [hProducer]
    exact sized.slot_after_lt p
  case slot_consumer_lt =>
    rw [hConsumer]
    exact sized.slot_after_lt c
  all_goals omega

/-- A ring is created empty, in one block for its slots. -/
theorem create_eq {o : RingOptions} (h : o.validate = .ok ()) (env : Environment) :
    create (α := α) o env = .ok ({ capacity := o.capacity },
      env.allocate (storage ({ capacity := o.capacity } : Ring α))) := by
  rw [create, h]

theorem holds_nil {capacity : UInt32} (sized : Cursor.Sized capacity) :
    Holds ({ capacity } : Ring α) 0 [] where
  sized := sized
  length_le := Nat.zero_le _
  producer := Cursor.after_zero.symm
  consumer := Cursor.after_zero.symm
  slots := fun _ h => absurd h (Nat.not_lt_zero _)

namespace Holds

variable (holds : Holds r passed elements)

include holds

/-- The elements are fewer than the numbers that a cursor runs through, so the distance of the
cursors tells how many there are. -/
theorem length_lt : elements.length < 2 * r.capacity.toNat := by
  have hPos := holds.sized.pos
  have hLe := holds.length_le
  omega

/-- The distance of the cursors is the number of elements. -/
theorem toNat_distance :
    (Cursor.distance r.capacity r.producer r.consumer).toNat = elements.length := by
  rw [holds.producer, holds.consumer, holds.sized.toNat_distance_after passed holds.length_lt]

/-- The cursors are a capacity apart if the ring is full, and only then. -/
theorem full_iff : Cursor.distance r.capacity r.producer r.consumer = r.capacity ↔
    elements.length = r.capacity.toNat := by
  rw [← UInt32.toNat_inj, holds.toNat_distance]

/-- The cursors meet if the ring is empty, and only then. -/
theorem empty_iff : r.producer = r.consumer ↔ elements = [] := by
  rw [holds.producer, holds.consumer, holds.sized.after_add_eq_iff passed holds.length_lt,
    List.length_eq_zero_iff]

theorem toNat_len : r.len.toNat = elements.length := by
  have hDistance := holds.toNat_distance
  rw [len, Cursor.occupancy]
  split
  · next hOver =>
      have hLt := UInt32.lt_iff_toNat_lt.mp hOver
      have hLe := holds.length_le
      omega
  · exact hDistance

theorem isEmpty_eq : r.isEmpty = elements.isEmpty := by
  rw [isEmpty, Bool.eq_iff_iff, decide_eq_true_iff, holds.empty_iff, List.isEmpty_iff]

theorem toNat_freeSpace : r.freeSpace.toNat = r.capacity.toNat - elements.length := by
  have hLen : r.len ≤ r.capacity :=
    UInt32.le_iff_toNat_le.mpr (holds.toNat_len.trans_le holds.length_le)
  rw [freeSpace, if_neg (UInt32.not_lt.mpr hLen), UInt32.toNat_sub_of_le _ _ hLen, holds.toNat_len]

theorem inBounds : r.InBounds := inBounds_of_after holds.sized holds.producer holds.consumer

/-- The slot that is written next holds none of the elements. -/
theorem slot_producer_ne (hRoom : elements.length < r.capacity.toNat) {i : Nat}
    (h : i < elements.length) : Cursor.slot r.capacity r.producer ≠
      Cursor.slot r.capacity (Cursor.after r.capacity (passed + i)) := by
  have hSplit : passed + elements.length = passed + i + (elements.length - i) := by omega
  rw [holds.producer, hSplit]
  exact holds.sized.slot_after_ne _ (by omega) (by omega)

/-- An element may be written behind the others, where nothing that counts is overwritten. -/
theorem write (hRoom : elements.length < r.capacity.toNat) (a : α) :
    Holds { r with slots := r.slots.insert (Cursor.slot r.capacity r.producer) a }
      passed elements where
  sized := holds.sized
  length_le := holds.length_le
  producer := holds.producer
  consumer := holds.consumer
  slots i h := by
    have hNe := holds.slot_producer_ne hRoom h
    rw [Std.HashMap.getD_insert, if_neg (by simpa using hNe)]
    exact holds.slots i h

/-- Moving the producer's cursor over a slot adds what the slot holds. -/
theorem publish (hRoom : elements.length < r.capacity.toNat)
    (hSlot : r.slots.getD (Cursor.slot r.capacity r.producer) default = a) :
    Holds { r with producer := Cursor.advance r.capacity r.producer } passed
      (elements ++ [a]) where
  sized := holds.sized
  length_le := by
    rw [List.length_append]
    exact hRoom
  producer := by
    change Cursor.advance r.capacity r.producer = _
    rw [holds.producer, holds.sized.advance_after, List.length_append, List.length_singleton,
      Nat.add_assoc]
  consumer := holds.consumer
  slots i h := by
    by_cases hOld : i < elements.length
    · rw [List.getElem_append_left hOld]
      exact holds.slots i hOld
    · have hLast : i = elements.length := by
        rw [List.length_append, List.length_singleton] at h
        omega
      subst hLast
      rw [List.getElem_concat_length rfl, ← hSlot, holds.producer]

/-- The slot that is read next holds the oldest element. -/
theorem slot_consumer {rest : List α} (h : elements = a :: rest) :
    r.slots.getD (Cursor.slot r.capacity r.consumer) default = a := by
  subst h
  rw [holds.consumer]
  exact holds.slots 0 (Nat.zero_lt_succ _)

/-- Moving the consumer's cursor lets the oldest element leave. -/
theorem leave {rest : List α} (h : elements = a :: rest) :
    Holds { r with consumer := Cursor.advance r.capacity r.consumer } (passed + 1) rest where
  sized := holds.sized
  length_le := by
    have hLe := holds.length_le
    rw [h, List.length_cons] at hLe
    exact Nat.le_of_succ_le hLe
  producer := by
    rw [holds.producer, h, List.length_cons, Nat.add_right_comm, Nat.add_assoc]
  consumer := by
    change Cursor.advance r.capacity r.consumer = _
    rw [holds.consumer, holds.sized.advance_after]
  slots i hi := by
    subst h
    rw [Nat.add_assoc, Nat.add_comm 1 i]
    exact holds.slots (i + 1) (Nat.succ_lt_succ hi)

/-- A cleared ring has passed all that it held. -/
theorem clear : Holds r.clear (passed + elements.length) [] where
  sized := holds.sized
  length_le := Nat.zero_le _
  producer := holds.producer
  consumer := holds.producer
  slots := fun _ h => absurd h (Nat.not_lt_zero _)

/-- A ring with room takes an element at the end. -/
theorem push_of_room (h : elements.length < r.capacity.toNat) :
    (r.push a).1 = true ∧ Holds (r.push a).2 passed (elements ++ [a]) := by
  have hNotFull := mt holds.full_iff.mp (Nat.ne_of_lt h)
  rw [push, if_neg hNotFull]
  exact ⟨rfl, (holds.write h a).publish h Std.HashMap.getD_insert_self⟩

/-- A full ring refuses an element and stays as it is. -/
theorem push_of_full (h : elements.length = r.capacity.toNat) : r.push a = (false, r) := by
  rw [push, if_pos (holds.full_iff.mpr h)]

/-- An empty ring has nothing to give and stays as it is. -/
theorem pull_nil (h : elements = []) : r.pull = (none, r) := by
  rw [pull, if_pos (holds.empty_iff.mpr h)]

/-- The element in front is given away first. -/
theorem pull_cons {rest : List α} (h : elements = a :: rest) :
    r.pull.1 = some a ∧ Holds r.pull.2 (passed + 1) rest := by
  have hNonempty : r.producer ≠ r.consumer :=
    mt holds.empty_iff.mp (h ▸ List.cons_ne_nil a rest)
  rw [pull, if_neg hNonempty]
  exact ⟨congrArg some (holds.slot_consumer h), holds.leave h⟩

end Holds
end TaskMemory.Ring

import Mathlib.Data.Nat.ModEq
import TaskMemory.Config.Options
import TaskMemory.Ring.Cursor

/-!
Cursors as counts. A cursor that has been advanced `n` times stands at `n` modulo two laps, so the
arithmetic on cursors is arithmetic on numbers of steps as long as two cursors are less than two
laps apart. The slot of a cursor is `n` modulo one lap.
-/
namespace TaskMemory.Cursor

/-- A capacity that leaves room for the cursor arithmetic in 32 bits. -/
structure Sized (capacity : UInt32) : Prop where
  pos : 0 < capacity.toNat
  le : capacity.toNat ≤ 2 ^ 30

/-- The capacities that are accepted are the ones that leave this room. -/
theorem validate_eq_ok_iff {o : RingOptions} : o.validate = .ok () ↔ Sized o.capacity := by
  have hZero : o.capacity = 0 ↔ o.capacity.toNat = 0 := UInt32.toNat_inj.symm
  have hLarge : maxRingCapacity < o.capacity ↔ 2 ^ 30 < o.capacity.toNat :=
    UInt32.lt_iff_toNat_lt
  rw [RingOptions.validate]
  constructor
  · intro h
    split at h
    · cases h
    · next hPos =>
        split at h
        · cases h
        · next hLe => exact ⟨Nat.pos_of_ne_zero (mt hZero.mpr hPos), not_lt.mp (mt hLarge.mpr hLe)⟩
  · rintro ⟨hPos, hLe⟩
    rw [if_neg (mt hZero.mp (Nat.ne_of_gt hPos)), if_neg (mt hLarge.mp (not_lt.mpr hLe))]

/-- The cursor after so many steps from the start. -/
def after (capacity : UInt32) (steps : Nat) : UInt32 := (steps % (2 * capacity.toNat)).toUInt32

variable {capacity cursor p c : UInt32}

@[simp] theorem after_zero : after capacity 0 = 0 := by
  rw [after, Nat.zero_mod]
  rfl

/-- Cursors start again after two laps. -/
theorem after_add_mod (capacity : UInt32) (steps ahead : Nat) :
    after capacity (steps + ahead % (2 * capacity.toNat)) = after capacity (steps + ahead) := by
  rw [after, after, Nat.add_mod_mod]

namespace Sized

variable (sized : Sized capacity)

include sized

theorem toNat_twice : (capacity * 2).toNat = 2 * capacity.toNat := by
  have hLe := sized.le
  rw [UInt32.toNat_mul, Nat.mul_comm]
  exact Nat.mod_eq_of_lt (by change 2 * capacity.toNat < 2 ^ 32; omega)

theorem toNat_add_one (h : cursor.toNat < 2 * capacity.toNat) :
    (cursor + 1).toNat = cursor.toNat + 1 := by
  have hLe := sized.le
  rw [UInt32.toNat_add]
  exact Nat.mod_eq_of_lt (by change cursor.toNat + 1 < 2 ^ 32; omega)

/-- A cursor goes up by one and starts again at twice the capacity. -/
theorem toNat_advance (h : cursor.toNat < 2 * capacity.toNat) :
    (advance capacity cursor).toNat =
      if cursor.toNat + 1 = 2 * capacity.toNat then 0 else cursor.toNat + 1 := by
  have hIff : cursor + 1 = capacity * 2 ↔ cursor.toNat + 1 = 2 * capacity.toNat := by
    rw [← UInt32.toNat_inj, sized.toNat_add_one h, sized.toNat_twice]
  by_cases hEnd : cursor.toNat + 1 = 2 * capacity.toNat
  · rw [advance, if_pos (hIff.mpr hEnd), if_pos hEnd]
    rfl
  · rw [advance, if_neg (mt hIff.mp hEnd), if_neg hEnd, sized.toNat_add_one h]

/-- The distance is how far the second cursor has to go to come to the first one. -/
theorem toNat_distance (hp : p.toNat < 2 * capacity.toNat) (hc : c.toNat < 2 * capacity.toNat) :
    (distance capacity p c).toNat =
      if c.toNat ≤ p.toNat then p.toNat - c.toNat else p.toNat + 2 * capacity.toNat - c.toNat := by
  by_cases h : c.toNat ≤ p.toNat
  · have hWord : c ≤ p := UInt32.le_iff_toNat_le.mpr h
    rw [distance, if_pos hWord, if_pos h, UInt32.toNat_sub_of_le _ _ hWord]
  · have hFits : p.toNat + 2 * capacity.toNat < 2 ^ 32 :=
      calc p.toNat + 2 * capacity.toNat
          < 2 * capacity.toNat + 2 * capacity.toNat := Nat.add_lt_add_right hp _
        _ ≤ 2 ^ 32 := by have hLe := sized.le; omega
    have hSum : (p + capacity * 2).toNat = p.toNat + 2 * capacity.toNat := by
      rw [UInt32.toNat_add, sized.toNat_twice, Nat.mod_eq_of_lt hFits]
    have hWord : c ≤ p + capacity * 2 := by
      rw [UInt32.le_iff_toNat_le, hSum]
      omega
    rw [distance, if_neg (mt UInt32.le_iff_toNat_le.mp h), if_neg h,
      UInt32.toNat_sub_of_le _ _ hWord, hSum]

omit sized in
/-- A cursor in its second lap is in the slot of the first one. -/
theorem toNat_slot : (slot capacity cursor).toNat =
    if capacity.toNat ≤ cursor.toNat then cursor.toNat - capacity.toNat else cursor.toNat := by
  by_cases h : capacity ≤ cursor
  · rw [slot, if_pos h, if_pos (UInt32.le_iff_toNat_le.mp h), UInt32.toNat_sub_of_le _ _ h]
  · rw [slot, if_neg h, if_neg (mt UInt32.le_iff_toNat_le.mpr h)]

/-- A cursor is the number of its steps, up to two laps. -/
theorem toNat_after (steps : Nat) :
    (after capacity steps).toNat = steps % (2 * capacity.toNat) := by
  have hLe := sized.le
  have hPos := sized.pos
  have hLt : steps % (2 * capacity.toNat) < 2 * capacity.toNat := Nat.mod_lt _ (by omega)
  exact UInt32.toNat_ofNat_of_lt' (by change _ < 2 ^ 32; omega)

theorem toNat_after_lt (steps : Nat) : (after capacity steps).toNat < 2 * capacity.toNat := by
  have hPos := sized.pos
  rw [sized.toNat_after]
  exact Nat.mod_lt _ (by omega)

theorem advance_after (steps : Nat) :
    advance capacity (after capacity steps) = after capacity (steps + 1) := by
  have hPos := sized.pos
  have hLt : steps % (2 * capacity.toNat) < 2 * capacity.toNat := Nat.mod_lt _ (by omega)
  have hOne : 1 % (2 * capacity.toNat) = 1 := Nat.mod_eq_of_lt (by omega)
  apply UInt32.toNat_inj.mp
  rw [sized.toNat_advance (sized.toNat_after_lt steps), sized.toNat_after, sized.toNat_after,
    Nat.add_mod_eq_ite, hOne]
  split <;> split <;> omega

/-- The distance of two cursors is the number of steps between them. -/
theorem toNat_distance_after (steps : Nat) {ahead : Nat} (h : ahead < 2 * capacity.toNat) :
    (distance capacity (after capacity (steps + ahead)) (after capacity steps)).toNat = ahead := by
  have hLt : steps % (2 * capacity.toNat) < 2 * capacity.toNat := Nat.mod_lt _ (by omega)
  rw [sized.toNat_distance (sized.toNat_after_lt _) (sized.toNat_after_lt _), sized.toNat_after,
    sized.toNat_after, Nat.add_mod_eq_ite, Nat.mod_eq_of_lt h]
  split <;> split <;> omega

/-- Cursors less than two laps apart are equal only if no step lies between them. -/
theorem after_add_eq_iff (steps : Nat) {ahead : Nat} (h : ahead < 2 * capacity.toNat) :
    after capacity (steps + ahead) = after capacity steps ↔ ahead = 0 := by
  constructor
  · intro hEq
    have hDistance := sized.toNat_distance_after steps h
    rw [hEq, distance, if_pos (UInt32.le_refl _), UInt32.sub_self] at hDistance
    exact hDistance.symm
  · rintro rfl
    rfl

/-- What lies between two cursors is told up to whole rounds of two laps. -/
theorem toNat_distance_after_mod (steps ahead : Nat) :
    (distance capacity (after capacity (steps + ahead)) (after capacity steps)).toNat =
      ahead % (2 * capacity.toNat) := by
  have hPos := sized.pos
  have hLt : ahead % (2 * capacity.toNat) < 2 * capacity.toNat := Nat.mod_lt _ (by omega)
  rw [← after_add_mod, sized.toNat_distance_after steps hLt]

/-- Two cursors are the same if an even number of laps lies between them. -/
theorem after_add_eq_iff_dvd (steps ahead : Nat) :
    after capacity (steps + ahead) = after capacity steps ↔ 2 * capacity.toNat ∣ ahead := by
  have hPos := sized.pos
  have hLt : ahead % (2 * capacity.toNat) < 2 * capacity.toNat := Nat.mod_lt _ (by omega)
  rw [← after_add_mod, sized.after_add_eq_iff steps hLt, Nat.dvd_iff_mod_eq_zero]

theorem toNat_slot_after (steps : Nat) :
    (slot capacity (after capacity steps)).toNat = steps % capacity.toNat := by
  have hLt := sized.toNat_after_lt steps
  have hFold :=
    Nat.mod_mod_of_dvd steps (Dvd.intro_left 2 rfl : capacity.toNat ∣ 2 * capacity.toNat)
  rw [toNat_slot, ← hFold, ← sized.toNat_after]
  split
  · next h => rw [Nat.mod_eq_sub_mod h, Nat.mod_eq_of_lt (by omega)]
  · next h => rw [Nat.mod_eq_of_lt (Nat.lt_of_not_le h)]

/-- Cursors less than a lap apart have different slots. -/
theorem slot_after_ne (steps : Nat) {ahead : Nat} (hPos : 0 < ahead) (h : ahead < capacity.toNat) :
    slot capacity (after capacity (steps + ahead)) ≠ slot capacity (after capacity steps) := by
  intro hEq
  have hMod : (steps + ahead) % capacity.toNat = steps % capacity.toNat := by
    rw [← sized.toNat_slot_after, ← sized.toNat_slot_after, hEq]
  have hZero := Nat.sub_mod_eq_zero_of_mod_eq hMod
  rw [Nat.add_sub_cancel_left, Nat.mod_eq_of_lt h] at hZero
  omega

theorem slot_after_lt (steps : Nat) : slot capacity (after capacity steps) < capacity := by
  rw [UInt32.lt_iff_toNat_lt, sized.toNat_slot_after]
  exact Nat.mod_lt _ sized.pos

end Sized
end TaskMemory.Cursor

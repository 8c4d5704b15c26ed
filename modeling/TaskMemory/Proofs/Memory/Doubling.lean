import Mathlib.Algebra.Group.Nat.Defs
import Mathlib.Data.Nat.Log
import Mathlib.Order.Bounds.Basic
import TaskMemory.Memory.Table

/-!
The capacities of a table that is filled entry by entry. It grows only when it is full, so how much
room it has depends on the number of its entries alone.
-/
namespace TaskMemory.Table

variable {n : Nat}

/-- The capacity that a table has come to with so many entries: none at first, then the least of 4,
8, 16 and so on with room for them all. -/
def roomFor (n : Nat) : Nat := if n = 0 then 0 else 2 ^ max 2 (Nat.clog 2 n)

/-- The room of a table is the smallest one of the steps that suffices. -/
theorem isLeast_roomFor (h : n ≠ 0) :
    IsLeast {capacity | n ≤ capacity ∧ ∃ k, capacity = 4 * 2 ^ k} (roomFor n) := by
  rw [roomFor, if_neg h]
  constructor
  · refine ⟨?_, max 2 (Nat.clog 2 n) - 2, ?_⟩
    · exact (Nat.le_pow_clog Nat.one_lt_two n).trans
        (Nat.pow_le_pow_right Nat.two_pos (Nat.le_max_right ..))
    · rw [← Nat.add_sub_cancel' (Nat.le_max_left 2 (Nat.clog 2 n)), Nat.add_sub_cancel_left]
      exact Nat.pow_add ..
  · rintro _ ⟨hLe, k, rfl⟩
    have hPow : 4 * 2 ^ k = 2 ^ (k + 2) := (Nat.mul_comm ..).trans (Nat.pow_add 2 k 2).symm
    rw [hPow] at hLe ⊢
    have hClog := (Nat.clog_le_iff_le_pow Nat.one_lt_two).mpr hLe
    exact Nat.pow_le_pow_right Nat.two_pos (Nat.max_le.mpr ⟨Nat.le_add_left .., hClog⟩)

/-- A table has room for its entries. -/
theorem le_roomFor (n : Nat) : n ≤ roomFor n := by
  by_cases h : n = 0
  · exact h ▸ Nat.zero_le _
  · exact (isLeast_roomFor h).1.1

theorem roomFor_eq_zero_iff : roomFor n = 0 ↔ n = 0 := by
  constructor
  · exact fun h => Nat.eq_zero_of_le_zero (h ▸ le_roomFor n)
  · rintro rfl
    rfl

/-- A further entry makes a full table grow, and no other one. -/
theorem roomFor_succ (n : Nat) :
    roomFor (n + 1) = if n = roomFor n then nextCapacity (roomFor n) else roomFor n := by
  by_cases h : n = 0
  · subst h
    decide
  · obtain ⟨⟨hLe, k, hPow⟩, hLeast⟩ := isLeast_roomFor h
    apply (isLeast_roomFor (Nat.succ_ne_zero n)).unique
    split
    · next hFull =>
        have hNext : nextCapacity (roomFor n) = 4 * 2 ^ (k + 1) := by
          rw [nextCapacity, if_neg (mt roomFor_eq_zero_iff.mp h), hPow, Nat.pow_succ,
            Nat.mul_assoc]
        rw [hNext]
        refine ⟨⟨by omega, k + 1, rfl⟩, ?_⟩
        rintro _ ⟨hMore, j, rfl⟩
        have hLt : 2 ^ k < 2 ^ j := by omega
        have hExponent := (Nat.pow_lt_pow_iff_right Nat.one_lt_two).mp hLt
        exact Nat.mul_le_mul_left 4 (Nat.pow_le_pow_right Nat.two_pos hExponent)
    · next hRoom =>
        refine ⟨⟨by omega, k, hPow⟩, ?_⟩
        rintro _ ⟨hMore, j, rfl⟩
        exact hLeast ⟨Nat.le_of_succ_le hMore, j, rfl⟩

end TaskMemory.Table

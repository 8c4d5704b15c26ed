import Mathlib.Algebra.Group.Nat.Defs
import TaskMemory.Config.Options

/-!
The numbers behind the bit layout of handles. A layout packs a slab index and an offset into
neighbouring bit ranges, so reading a handle back is division and remainder.
-/
namespace TaskMemory.Codec

/-- A layout with so many offset bits, and so many bits above them for the slab index. -/
structure Packs (c : Codec) (offsetBits slabBits : Nat) : Prop where
  offsetMask : c.offsetMask.toNat = 2 ^ offsetBits - 1
  slabMask : c.slabMask.toNat = (2 ^ slabBits - 1) * 2 ^ offsetBits
  slabShift : c.slabShift.toNat = offsetBits
  maxSlabs : c.maxSlabs.toNat ≤ 2 ^ slabBits
  offsetBits_lt : offsetBits < 32
  width : offsetBits + slabBits ≤ 32

theorem toNat_sub_one {v : UInt32} (h : v ≠ 0) : (v - 1).toNat = v.toNat - 1 := by
  have hNat : v.toNat ≠ 0 := fun h0 => h (UInt32.toNat_inj.mp h0)
  exact UInt32.toNat_sub_of_le _ _ (UInt32.le_iff_toNat_le.mpr (by change 1 ≤ _; omega))

theorem toNat_thirtyTwo_sub {v : UInt32} (h : v.toNat ≤ 32) : (32 - v).toNat = 32 - v.toNat :=
  UInt32.toNat_sub_of_le _ _ (UInt32.le_iff_toNat_le.mpr h)

/-- The lowest bits of a word of ones, as a number. -/
theorem ones_shiftRight {width : Nat} (h : width ≤ 32) :
    4294967295 >>> (32 - width) = 2 ^ width - 1 := by
  have hSplit : 2 ^ (32 - width) * 2 ^ width = 4294967296 := by
    rw [← Nat.pow_add, Nat.sub_add_cancel h]
  have hLow := Nat.two_pow_pos (32 - width)
  have hHigh := Nat.two_pow_pos width
  rw [Nat.shiftRight_eq_div_pow]
  apply Nat.div_eq_of_lt_le
  · rw [Nat.sub_mul, Nat.mul_comm (2 ^ width), hSplit]
    omega
  · rw [Nat.sub_add_cancel hHigh, Nat.mul_comm, hSplit]
    omega

/-- Bits that start below the end of a word and are few enough fit into it. -/
theorem mul_two_pow_lt {n width shift : Nat} (hn : n < 2 ^ width) (h : width + shift ≤ 32) :
    n * 2 ^ shift < 2 ^ 32 :=
  calc n * 2 ^ shift
      < 2 ^ width * 2 ^ shift := Nat.mul_lt_mul_of_pos_right hn (Nat.two_pow_pos _)
    _ = 2 ^ (width + shift) := (Nat.pow_add ..).symm
    _ ≤ 2 ^ 32 := Nat.pow_le_pow_right (by decide) h

/-- A mask is a run of ones from its shift on. -/
theorem toNat_maskAt {shift width : UInt32} (h : shift.toNat + width.toNat ≤ 32)
    (hShift : shift.toNat < 32) :
    (maskAt shift width).toNat = (2 ^ width.toNat - 1) * 2 ^ shift.toNat := by
  unfold maskAt
  split
  · next hZero => simp [hZero]
  · next hZero =>
      have hPos : width.toNat ≠ 0 := fun h0 => hZero (UInt32.toNat_inj.mp h0)
      have hOnes : (2 ^ width.toNat - 1) < 2 ^ width.toNat :=
        Nat.sub_lt (Nat.two_pow_pos _) (by decide)
      have hFits := mul_two_pow_lt hOnes (by omega : width.toNat + shift.toNat ≤ 32)
      rw [UInt32.toNat_shiftLeft, UInt32.toNat_shiftRight, toNat_thirtyTwo_sub (by omega),
        Nat.mod_eq_of_lt (a := 32 - width.toNat) (by omega), Nat.mod_eq_of_lt hShift]
      change 4294967295 >>> (32 - width.toNat) <<< shift.toNat % 2 ^ 32 = _
      rw [ones_shiftRight (by omega), Nat.shiftLeft_eq, Nat.mod_eq_of_lt hFits]

/-- The length of a word in bits is one more than its logarithm. -/
theorem toNat_bitLength (v : UInt32) :
    (bitLength v).toNat = if v.toNat = 0 then 0 else v.toNat.log2 + 1 := by
  unfold bitLength
  by_cases hZero : v = 0
  · simp [hZero]
  · have hNat : v.toNat ≠ 0 := fun h => hZero (UInt32.toNat_inj.mp h)
    have hLog : v.log2.toNat = v.toNat.log2 := rfl
    have hLt : v.toNat.log2 < 32 := (Nat.log2_lt hNat).mpr v.toNat_lt
    simp only [hZero, hNat, ↓reduceIte, UInt32.toNat_add, hLog]
    exact Nat.mod_eq_of_lt (by change _ + 1 < 2 ^ 32; omega)

/-- A number has as many binary digits as it needs. -/
theorem lt_two_pow_bitLength (v : UInt32) : v.toNat < 2 ^ (bitLength v).toNat := by
  rw [toNat_bitLength]
  split
  · next h => simp [h]
  · exact Nat.lt_log2_self

/-- A number that fits into some bits is not longer than these. -/
theorem bitLength_le {v : UInt32} {bits : Nat} (h : v.toNat < 2 ^ bits) :
    (bitLength v).toNat ≤ bits := by
  rw [toNat_bitLength]
  split
  · omega
  · next hZero => exact (Nat.log2_lt hZero).mpr h

theorem bitLength_two_pow_sub_one {v : UInt32} {bits : Nat} (h : v.toNat = 2 ^ bits - 1) :
    (bitLength v).toNat = bits := by
  have hPos := Nat.two_pow_pos bits
  apply Nat.le_antisymm (bitLength_le (by omega))
  have hLt := lt_two_pow_bitLength v
  exact (Nat.pow_le_pow_iff_right (by decide : 1 < 2)).mp (by omega)

/-- The check on the slab capacity accepts exactly the powers of two. -/
theorem toNat_eq_two_pow {capacity : UInt32} (hZero : capacity ≠ 0)
    (h : capacity &&& (capacity - 1) = 0) : ∃ bits < 32, capacity.toNat = 2 ^ bits := by
  have hNat : capacity.toNat ≠ 0 := fun h0 => hZero (UInt32.toNat_inj.mp h0)
  have hAnd : capacity.toNat &&& (capacity.toNat - 1) = 0 := by
    rw [← toNat_sub_one hZero, ← UInt32.toNat_and, h]
    rfl
  obtain ⟨bits, hBits⟩ := (Nat.and_sub_one_eq_zero_iff_isPowerOfTwo hNat).mp hAnd
  refine ⟨bits, ?_, hBits⟩
  have hLt := capacity.toNat_lt
  rw [hBits] at hLt
  exact (Nat.pow_lt_pow_iff_right (by decide)).mp hLt

theorem toNat_one_shiftLeft {bits : UInt32} (h : bits.toNat ≤ 32) :
    ((1 : UInt64) <<< bits.toUInt64).toNat = 2 ^ bits.toNat := by
  rw [UInt64.toNat_shiftLeft, UInt32.toNat_toUInt64, Nat.mod_eq_of_lt (a := bits.toNat) (by omega),
    Nat.shiftLeft_eq]
  change 1 * 2 ^ bits.toNat % 2 ^ 64 = _
  rw [Nat.one_mul, Nat.mod_eq_of_lt]
  exact Nat.pow_lt_pow_right (by decide) (by omega)

/-- A layout that is accepted has a capacity and a limit that are, and is made of them. -/
theorem make_cases {capacity : UInt32} {limit : SlabLimit} {c : Codec}
    (h : make capacity limit = .ok c) :
    capacity ≠ 0 ∧ capacity &&& (capacity - 1) = 0 ∧
    ((limit = .unbounded ∧ c = ⟨capacity - 1,
        maskAt (bitLength (capacity - 1)) (32 - bitLength (capacity - 1)),
        bitLength (capacity - 1), 1 <<< (32 - bitLength (capacity - 1)).toUInt64⟩) ∨
      ∃ slabs, limit = .bounded slabs ∧ slabs ≠ 0 ∧
        slabs.toUInt64 ≤ 1 <<< (32 - bitLength (capacity - 1)).toUInt64 ∧
        c = ⟨capacity - 1, maskAt (bitLength (capacity - 1)) (bitLength (slabs - 1)),
          bitLength (capacity - 1), slabs.toUInt64⟩) := by
  unfold make at h
  split at h
  · cases h
  · next hZero =>
      split at h
      · cases h
      · next hPower =>
          refine ⟨hZero, by simpa using hPower, ?_⟩
          cases limit with
          | unbounded => exact Or.inl ⟨rfl, (Except.ok.inj h).symm⟩
          | bounded slabs =>
              simp only at h
              split at h
              · cases h
              · next hSlabs =>
                  split at h
                  · cases h
                  · next hFits =>
                      exact Or.inr ⟨slabs, rfl, hSlabs, UInt64.not_lt.mp hFits,
                        (Except.ok.inj h).symm⟩

/-- The number of slabs that a limit allows when an offset takes so many bits. -/
def slabsWithin (offsetBits : Nat) : SlabLimit → Nat
  | .unbounded => 2 ^ (32 - offsetBits)
  | .bounded slabs => slabs.toNat

/-- A layout that is accepted has the offset bits that the capacity takes, and no more bits for the
slab index than the number of slabs takes. -/
theorem make_layout {capacity : UInt32} {limit : SlabLimit} {c : Codec}
    (h : make capacity limit = .ok c) : ∃ offsetBits slabBits, c.Packs offsetBits slabBits ∧
      capacity.toNat = 2 ^ offsetBits ∧ c.maxSlabs.toNat = slabsWithin offsetBits limit ∧
      ∀ bits, c.maxSlabs.toNat ≤ 2 ^ bits → slabBits ≤ bits := by
  obtain ⟨hZero, hPower, hLimit⟩ := make_cases h
  obtain ⟨bits, hLt, hBits⟩ := toNat_eq_two_pow hZero hPower
  have hMask : (capacity - 1).toNat = 2 ^ bits - 1 := by rw [toNat_sub_one hZero, hBits]
  have hShift := bitLength_two_pow_sub_one hMask
  have hIndex : (32 - bitLength (capacity - 1)).toNat = 32 - bits := by
    rw [toNat_thirtyTwo_sub (by omega), hShift]
  have hAddress : ((1 : UInt64) <<< (32 - bitLength (capacity - 1)).toUInt64).toNat =
      2 ^ (32 - bits) := by
    rw [toNat_one_shiftLeft (by omega), hIndex]
  rcases hLimit with ⟨rfl, rfl⟩ | ⟨slabs, rfl, hSlabs, hFits, rfl⟩
  · refine ⟨bits, 32 - bits, ⟨hMask, ?_, hShift, Nat.le_of_eq hAddress, hLt, by omega⟩, hBits,
      hAddress, fun width hWidth => ?_⟩
    · rw [toNat_maskAt (by omega) (by omega), hIndex, hShift]
    · exact (Nat.pow_le_pow_iff_right (by decide : 1 < 2)).mp (hAddress ▸ hWidth)
  · have hPred := toNat_sub_one hSlabs
    have hLe : slabs.toNat ≤ 2 ^ (32 - bits) := by
      rw [UInt64.le_iff_toNat_le, hAddress] at hFits
      exact hFits
    have hNat : slabs.toNat ≠ 0 := fun h0 => hSlabs (UInt32.toNat_inj.mp h0)
    have hWidth : (bitLength (slabs - 1)).toNat ≤ 32 - bits := bitLength_le (by omega)
    have hMax := lt_two_pow_bitLength (slabs - 1)
    refine ⟨bits, (bitLength (slabs - 1)).toNat, ⟨hMask, ?_, hShift, ?_, hLt, by omega⟩, hBits, rfl,
      fun width hFew => bitLength_le ?_⟩
    · rw [toNat_maskAt (by omega) (by omega), hShift]
    · change slabs.toNat ≤ _
      omega
    · change slabs.toNat ≤ _ at hFew
      omega

/-- Every layout that is accepted packs its two numbers into 32 bits. -/
theorem make_packs {capacity : UInt32} {limit : SlabLimit} {c : Codec}
    (h : make capacity limit = .ok c) : ∃ offsetBits slabBits, c.Packs offsetBits slabBits := by
  obtain ⟨offsetBits, slabBits, packs, -⟩ := make_layout h
  exact ⟨offsetBits, slabBits, packs⟩

namespace Packs

variable {c : Codec} {offsetBits slabBits : Nat} (packs : c.Packs offsetBits slabBits)

include packs

/-- A slab has as many slots as there are offsets. -/
theorem toNat_slabCapacity : c.slabCapacity.toNat = 2 ^ offsetBits := by
  have hPos := Nat.two_pow_pos offsetBits
  have hLt : 2 ^ offsetBits < 2 ^ 32 := Nat.pow_lt_pow_right (by decide) packs.offsetBits_lt
  rw [slabCapacity, UInt32.toNat_add, packs.offsetMask]
  change (2 ^ offsetBits - 1 + 1) % 2 ^ 32 = _
  rw [Nat.sub_add_cancel hPos, Nat.mod_eq_of_lt hLt]

/-- The offset is the low part of a raw handle. -/
theorem toNat_offset (h : Handle) : (c.offset h).toNat = h.raw.toNat % 2 ^ offsetBits := by
  rw [offset, UInt32.toNat_and, packs.offsetMask, Nat.and_two_pow_sub_one_eq_mod]

/-- The slab is the part of a raw handle above the offset. -/
theorem toNat_slab (h : Handle) :
    (c.slab h).toNat = h.raw.toNat / 2 ^ offsetBits % 2 ^ slabBits := by
  rw [slab, UInt32.toNat_shiftRight, UInt32.toNat_and, packs.slabMask, packs.slabShift,
    Nat.mod_eq_of_lt packs.offsetBits_lt, ← Nat.shiftLeft_eq, Nat.shiftRight_and_distrib,
    Nat.shiftLeft_shiftRight, Nat.and_two_pow_sub_one_eq_mod, Nat.shiftRight_eq_div_pow]

/-- A raw handle is put together from the slab and the offset, neither of which reaches into the
other. -/
theorem toNat_encode {slab offset : UInt32} (hSlab : slab.toNat < 2 ^ slabBits)
    (hOffset : offset.toNat < 2 ^ offsetBits) :
    (c.encode slab offset).raw.toNat = slab.toNat * 2 ^ offsetBits + offset.toNat := by
  have hFits : slab.toNat * 2 ^ offsetBits < 2 ^ 32 :=
    mul_two_pow_lt hSlab (by have := packs.width; omega)
  rw [encode, UInt32.toNat_or, UInt32.toNat_and, UInt32.toNat_shiftLeft, packs.slabMask,
    packs.slabShift, Nat.mod_eq_of_lt packs.offsetBits_lt, Nat.shiftLeft_eq,
    Nat.mod_eq_of_lt hFits, ← Nat.shiftLeft_eq, ← Nat.shiftLeft_eq, ← Nat.shiftLeft_and_distrib,
    Nat.and_two_pow_sub_one_of_lt_two_pow hSlab, ← Nat.shiftLeft_add_eq_or_of_lt hOffset]

/-- A handle reads back as the slab and the offset it was made of. -/
theorem slab_encode {slab offset : UInt32} (hSlab : slab.toNat < 2 ^ slabBits)
    (hOffset : offset.toNat < 2 ^ offsetBits) : c.slab (c.encode slab offset) = slab := by
  apply UInt32.toNat_inj.mp
  rw [packs.toNat_slab, packs.toNat_encode hSlab hOffset, Nat.mul_comm,
    Nat.mul_add_div (Nat.two_pow_pos _), Nat.div_eq_of_lt hOffset, Nat.add_zero,
    Nat.mod_eq_of_lt hSlab]

theorem offset_encode {slab offset : UInt32} (hSlab : slab.toNat < 2 ^ slabBits)
    (hOffset : offset.toNat < 2 ^ offsetBits) : c.offset (c.encode slab offset) = offset := by
  apply UInt32.toNat_inj.mp
  rw [packs.toNat_offset, packs.toNat_encode hSlab hOffset, Nat.mul_comm, Nat.mul_add_mod,
    Nat.mod_eq_of_lt hOffset]

end Packs
end TaskMemory.Codec

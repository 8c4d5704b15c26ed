import Mathlib.Data.Prod.Lex
import TaskMemory.Proofs.Handle.Packing

/-!
Handles as a code of addresses. Within the ranges of a layout every pair of a slab and an offset
has a handle of its own, handles are ordered as the pairs are, and whatever bits a handle has, only
those under the two masks are read.
-/
namespace TaskMemory.Codec

variable {c : Codec} {capacity slab offset slab' offset' : UInt32} {limit : SlabLimit}

/-- A slab and an offset that a pool with this layout can have. -/
structure Addresses (c : Codec) (capacity slab offset : UInt32) : Prop where
  slab_lt : slab.toUInt64 < c.maxSlabs
  offset_lt : offset < capacity

/-- The part of a handle that is read. -/
def masked (c : Codec) (h : Handle) : Handle := ⟨h.raw &&& (c.slabMask ||| c.offsetMask)⟩

/-- A layout encodes each address as a handle of its own, in the order of the addresses, and reads
any handle as the address that its masked bits encode. -/
structure Codes (c : Codec) (capacity : UInt32) : Prop where
  encodes : ∀ slab offset, c.Addresses capacity slab offset →
    c.encodeChecked slab offset = .ok (c.encode slab offset) ∧
    c.slab (c.encode slab offset) = slab ∧ c.offset (c.encode slab offset) = offset
  monotone : ∀ slab offset slab' offset', c.Addresses capacity slab offset →
    c.Addresses capacity slab' offset' → toLex (slab, offset) < toLex (slab', offset') →
    compare (c.encode slab offset) (c.encode slab' offset') = .lt
  injective : ∀ slab offset slab' offset', c.Addresses capacity slab offset →
    c.Addresses capacity slab' offset' → c.encode slab offset = c.encode slab' offset' →
    (slab, offset) = (slab', offset')
  offset_lt : ∀ h : Handle, c.offset h < capacity
  decodes : ∀ h : Handle, (c.slab h).toUInt64 < c.maxSlabs →
    c.encodeChecked (c.slab h) (c.offset h) = .ok (c.masked h) ∧
    c.slab (c.masked h) = c.slab h ∧ c.offset (c.masked h) = c.offset h

/-- A codec gives back the capacity that it was made for. -/
theorem slabCapacity_eq (h : make capacity limit = .ok c) : c.slabCapacity = capacity := by
  obtain ⟨_, _, ⟨_, rfl⟩ | ⟨_, _, _, _, rfl⟩⟩ := make_cases h
  · exact UInt32.sub_add_cancel capacity 1
  · exact UInt32.sub_add_cancel capacity 1

/-- Masking with a mask that starts at some bit is masking what is above that bit. -/
theorem and_shiftLeft (n mask shift : Nat) :
    n &&& (mask <<< shift) = ((n >>> shift) &&& mask) <<< shift := by
  apply Nat.eq_of_testBit_eq
  intro i
  by_cases hi : shift ≤ i
  · simp [Nat.testBit_and, Nat.testBit_shiftLeft, Nat.testBit_shiftRight, hi]
  · simp [Nat.testBit_and, Nat.testBit_shiftLeft, hi]

namespace Packs

variable {offsetBits slabBits : Nat} (packs : c.Packs offsetBits slabBits)

include packs

theorem toNat_slab_lt (h : Handle) : (c.slab h).toNat < 2 ^ slabBits := by
  rw [packs.toNat_slab]
  exact Nat.mod_lt _ (Nat.two_pow_pos _)

theorem toNat_offset_lt (h : Handle) : (c.offset h).toNat < 2 ^ offsetBits := by
  rw [packs.toNat_offset]
  exact Nat.mod_lt _ (Nat.two_pow_pos _)

/-- Encoding what was read from a handle clears the bits outside the masks. -/
theorem encode_slab_offset (h : Handle) : c.encode (c.slab h) (c.offset h) = c.masked h := by
  suffices hRaw : (c.encode (c.slab h) (c.offset h)).raw = (c.masked h).raw from
    congrArg Handle.mk hRaw
  apply UInt32.toNat_inj.mp
  have hOffset := packs.toNat_offset_lt h
  rw [packs.toNat_encode (packs.toNat_slab_lt h) hOffset, ← Nat.shiftLeft_eq,
    Nat.shiftLeft_add_eq_or_of_lt hOffset, packs.toNat_slab, packs.toNat_offset, masked,
    UInt32.toNat_and, UInt32.toNat_or, packs.slabMask, packs.offsetMask, Nat.and_or_distrib_left,
    ← Nat.shiftLeft_eq, and_shiftLeft, Nat.and_two_pow_sub_one_eq_mod,
    Nat.and_two_pow_sub_one_eq_mod, Nat.shiftRight_eq_div_pow]

theorem slab_lt (h : c.Addresses capacity slab offset) : slab.toNat < 2 ^ slabBits :=
  (UInt64.lt_iff_toNat_lt.mp h.slab_lt).trans_le packs.maxSlabs

variable (hCapacity : c.slabCapacity = capacity)

include hCapacity

/-- An offset is in a slab if it fits into the bits for offsets. -/
theorem lt_capacity_iff : offset < capacity ↔ offset.toNat < 2 ^ offsetBits := by
  rw [← hCapacity, UInt32.lt_iff_toNat_lt, packs.toNat_slabCapacity]

theorem offset_lt (h : c.Addresses capacity slab offset) : offset.toNat < 2 ^ offsetBits :=
  (packs.lt_capacity_iff hCapacity).mp h.offset_lt

/-- Both assertions hold of an address that the codec has. -/
theorem encodeChecked_eq (h : c.Addresses capacity slab offset) :
    c.encodeChecked slab offset = .ok (c.encode slab offset) := by
  have hOffset : ¬c.offsetMask < offset := by
    have hLt := packs.offset_lt hCapacity h
    have hMask := packs.offsetMask
    rw [UInt32.lt_iff_toNat_lt]
    omega
  rw [encodeChecked, if_neg hOffset, if_neg (UInt64.not_le.mpr h.slab_lt)]

/-- Handles are in the order of their slabs, and within a slab in that of their offsets. -/
theorem encode_lt (h : c.Addresses capacity slab offset)
    (h' : c.Addresses capacity slab' offset')
    (hLt : toLex (slab, offset) < toLex (slab', offset')) :
    (c.encode slab offset).raw.toNat < (c.encode slab' offset').raw.toNat := by
  rw [packs.toNat_encode (packs.slab_lt h) (packs.offset_lt hCapacity h),
    packs.toNat_encode (packs.slab_lt h') (packs.offset_lt hCapacity h')]
  rcases Prod.Lex.toLex_lt_toLex.mp hLt with hSlab | ⟨rfl, hOffset⟩
  · have hFits := packs.offset_lt hCapacity h
    calc slab.toNat * 2 ^ offsetBits + offset.toNat
        < (slab.toNat + 1) * 2 ^ offsetBits := by rw [Nat.succ_mul]; omega
      _ ≤ slab'.toNat * 2 ^ offsetBits :=
          Nat.mul_le_mul_right _ (UInt32.lt_iff_toNat_lt.mp hSlab)
      _ ≤ _ := Nat.le_add_right _ _
  · exact Nat.add_lt_add_left (UInt32.lt_iff_toNat_lt.mp hOffset) _

end Packs

/-- Every layout that is accepted is a code of the addresses of its pool. -/
theorem make_codes (h : make capacity limit = .ok c) : c.Codes capacity := by
  obtain ⟨offsetBits, slabBits, packs⟩ := make_packs h
  have hCapacity := slabCapacity_eq h
  have hOffset (h : Handle) : c.offset h < capacity :=
    (packs.lt_capacity_iff hCapacity).mpr (packs.toNat_offset_lt h)
  have hRead (slab offset) (h : c.Addresses capacity slab offset) :
      c.slab (c.encode slab offset) = slab ∧ c.offset (c.encode slab offset) = offset :=
    ⟨packs.slab_encode (packs.slab_lt h) (packs.offset_lt hCapacity h),
      packs.offset_encode (packs.slab_lt h) (packs.offset_lt hCapacity h)⟩
  constructor
  case encodes =>
    intro slab offset h
    exact ⟨packs.encodeChecked_eq hCapacity h, hRead slab offset h⟩
  case monotone =>
    intro slab offset slab' offset' h h' hLt
    exact Nat.compare_eq_lt.mpr (packs.encode_lt hCapacity h h' hLt)
  case injective =>
    intro slab offset slab' offset' h h' hEq
    obtain ⟨hSlab, hOffset⟩ := hRead slab offset h
    rw [hEq, (hRead slab' offset' h').1] at hSlab
    rw [hEq, (hRead slab' offset' h').2] at hOffset
    exact (Prod.ext hSlab hOffset).symm
  case offset_lt => exact hOffset
  case decodes =>
    intro h hSlab
    have hIn : c.Addresses capacity (c.slab h) (c.offset h) := ⟨hSlab, hOffset h⟩
    rw [← packs.encode_slab_offset h]
    exact ⟨packs.encodeChecked_eq hCapacity hIn, hRead _ _ hIn⟩

/-- The widest slabs there are leave a single index bit, and no bit of a handle is unused. -/
theorem make_codes_widest :
    make 2147483648 (.bounded 2) = .ok ⟨2147483647, 2147483648, 31, 2⟩ ∧
    Codes ⟨2147483647, 2147483648, 31, 2⟩ 2147483648 :=
  ⟨by decide, make_codes (show make 2147483648 (.bounded 2) = .ok _ by decide)⟩

end TaskMemory.Codec

import Mathlib.Data.Nat.Log
import TaskMemory.Proofs.Handle.RoundTrip

/-!
Which configurations of a pool are accepted, and what they come to. A layout has room for a slab
capacity and a number of slabs if the capacity is a power of two and there are not more slots than
handles, both counted without bound. It then gives the offset and the slab index neighbouring ranges
of bits, neither wider than it has to be, so capacity and number of slabs make up the layout. Of all
that is wrong with another configuration the first thing is reported.
-/
namespace TaskMemory.Codec

/-- A capacity is a power of two, and a limit that is given names a slab at least and leaves no more
slots than there are handles. -/
def Admits (capacity : UInt32) (limit : SlabLimit) : Prop :=
  capacity.toNat.isPowerOfTwo ∧ (limit = .unbounded ∨
    ∃ slabs, limit = .bounded slabs ∧ 1 ≤ slabs.toNat ∧ slabs.toNat * capacity.toNat ≤ 2 ^ 32)

/-- All that is wrong with a configuration, in the order in which it is looked for. -/
def objections (capacity : UInt32) (limit : SlabLimit) : List ConfigError :=
  (if capacity = 0 then [.zeroSlabCapacity] else []) ++
  (if capacity.toNat.isPowerOfTwo then [] else [.slabCapacityNotPowerOfTwo capacity]) ++
  (if limit = .bounded 0 then [.zeroSlabLimit] else []) ++
  match limit with
  | .unbounded => []
  | .bounded slabs =>
    if 2 ^ 32 < slabs.toNat * capacity.toNat then
      [.slabLimitTooLarge slabs (UInt64.ofNat (2 ^ 32 / capacity.toNat))]
    else []

/-- A layout for a capacity and a limit that have been accepted. -/
structure Lays (c : Codec) (capacity : UInt32) (limit : SlabLimit) : Prop where
  slabCapacity : c.slabCapacity = capacity
  offsetBits : c.offsetBits.toNat = capacity.toNat.log2
  maxSlabs : c.maxSlabs.toNat = match limit with
    | .unbounded => 2 ^ 32 / capacity.toNat
    | .bounded slabs => slabs.toNat
  /-- The offset has the bits from the lowest one up to where the slab index starts. -/
  offsetMask : ∀ i, c.offsetMask.toNat.testBit i = true ↔ i < c.offsetBits.toNat
  /-- The slab index has as many bits above them as it takes to tell the slabs apart. -/
  slabMask : ∀ i, c.slabMask.toNat.testBit i = true ↔
    c.offsetBits.toNat ≤ i ∧ i < c.offsetBits.toNat + Nat.clog 2 c.maxSlabs.toNat
  disjoint : c.offsetMask &&& c.slabMask = 0

variable {capacity : UInt32} {limit : SlabLimit} {c : Codec}

theorem toNat_ne_zero (h : capacity ≠ 0) : capacity.toNat ≠ 0 :=
  fun hZero => h (UInt32.toNat_inj.mp hZero)

/-- A word is a power of two if it has no bit in common with the word before it. -/
theorem isPowerOfTwo_iff (hZero : capacity ≠ 0) :
    capacity.toNat.isPowerOfTwo ↔ capacity &&& (capacity - 1) = 0 := by
  rw [← Nat.and_sub_one_eq_zero_iff_isPowerOfTwo (toNat_ne_zero hZero), ← toNat_sub_one hZero,
    ← UInt32.toNat_and, ← UInt32.toNat_inj]
  rfl

/-- The number of slabs that can be addressed, computed in words. -/
theorem addressable_eq {bits : Nat} (hLt : bits < 32) (hBits : capacity.toNat = 2 ^ bits) :
    ((1 : UInt64) <<< (32 - bitLength (capacity - 1)).toUInt64) =
      UInt64.ofNat (2 ^ 32 / capacity.toNat) ∧
    ((1 : UInt64) <<< (32 - bitLength (capacity - 1)).toUInt64).toNat = 2 ^ (32 - bits) := by
  have hZero : capacity ≠ 0 := fun h =>
    absurd ((congrArg UInt32.toNat h).symm.trans hBits) (Nat.two_pow_pos bits).ne
  have hShift : (bitLength (capacity - 1)).toNat = bits :=
    bitLength_two_pow_sub_one (by rw [toNat_sub_one hZero, hBits])
  have hIndex : (32 - bitLength (capacity - 1)).toNat = 32 - bits := by
    rw [toNat_thirtyTwo_sub (by omega), hShift]
  have hNat : ((1 : UInt64) <<< (32 - bitLength (capacity - 1)).toUInt64).toNat =
      2 ^ (32 - bits) := by
    rw [toNat_one_shiftLeft (by omega), hIndex]
  refine ⟨UInt64.toNat_inj.mp ?_, hNat⟩
  have hFits : 2 ^ (32 - bits) < 2 ^ 64 := Nat.pow_lt_pow_right (by decide) (by omega)
  rw [hNat, hBits, Nat.pow_div hLt.le (by decide), UInt64.toNat_ofNat_of_lt' hFits]

/-- A limit is looked at once the capacity has been found to be a power of two. -/
theorem objections_of_isPowerOfTwo (hZero : capacity ≠ 0) (hTwo : capacity.toNat.isPowerOfTwo)
    (limit : SlabLimit) : objections capacity limit =
      (if limit = .bounded 0 then [.zeroSlabLimit] else []) ++
        match limit with
        | .unbounded => []
        | .bounded slabs =>
          if 2 ^ 32 < slabs.toNat * capacity.toNat then
            [.slabLimitTooLarge slabs (UInt64.ofNat (2 ^ 32 / capacity.toNat))]
          else [] := by
  simp only [objections, hZero, hTwo, ↓reduceIte, List.nil_append]

/-- A number of slabs is more than can be addressed if there are more slots than handles. -/
theorem addressable_lt_iff {bits : Nat} (hLt : bits < 32) (hBits : capacity.toNat = 2 ^ bits)
    (slabs : UInt32) :
    (1 : UInt64) <<< (32 - bitLength (capacity - 1)).toUInt64 < slabs.toUInt64 ↔
      2 ^ 32 < slabs.toNat * capacity.toNat := by
  have hSplit : 2 ^ (32 - bits) * 2 ^ bits = 2 ^ 32 := by
    rw [← Nat.pow_add, Nat.sub_add_cancel hLt.le]
  rw [UInt64.lt_iff_toNat_lt, (addressable_eq hLt hBits).2, UInt32.toNat_toUInt64, hBits, ← hSplit]
  exact (Nat.mul_lt_mul_right (Nat.two_pow_pos bits)).symm

/-- Of what is wrong with a configuration the first thing is reported, and if nothing is there is a
layout. -/
theorem make_eq (capacity : UInt32) (limit : SlabLimit) :
    match (objections capacity limit).head? with
    | some e => make capacity limit = .error e
    | none => ∃ c, make capacity limit = .ok c := by
  by_cases hZero : capacity = 0
  · simp [objections, make, hZero]
  by_cases hPower : capacity &&& (capacity - 1) = 0
  · have hTwo := (isPowerOfTwo_iff hZero).mpr hPower
    obtain ⟨bits, hLt, hBits⟩ := toNat_eq_two_pow hZero hPower
    rw [objections_of_isPowerOfTwo hZero hTwo, make, if_neg hZero, if_neg (not_not.mpr hPower)]
    cases limit with
    | unbounded => exact ⟨_, rfl⟩
    | bounded slabs =>
        by_cases hSlabs : slabs = 0
        · simp only [hSlabs, ↓reduceIte, List.cons_append, List.head?_cons]
        · have hLimit : SlabLimit.bounded slabs ≠ .bounded 0 :=
            fun h => hSlabs (SlabLimit.bounded.inj h)
          dsimp only
          by_cases hLarge : 2 ^ 32 < slabs.toNat * capacity.toNat
          · rw [if_neg hLimit, if_pos hLarge, ← (addressable_eq hLt hBits).1]
            simp only [hSlabs, (addressable_lt_iff hLt hBits slabs).mpr hLarge, ↓reduceIte,
              List.nil_append, List.head?_cons]
          · rw [if_neg hLimit, if_neg hLarge]
            simp only [hSlabs, mt (addressable_lt_iff hLt hBits slabs).mp hLarge, ↓reduceIte]
            exact ⟨_, rfl⟩
  · have hTwo := mt (isPowerOfTwo_iff hZero).mp hPower
    simp [objections, make, hZero, hPower, hTwo]

/-- What a codec is refused for is the first objection there is. -/
theorem make_eq_error_iff {e : ConfigError} :
    make capacity limit = .error e ↔ (objections capacity limit).head? = some e := by
  have hMake := make_eq capacity limit
  cases hHead : (objections capacity limit).head? with
  | none =>
      rw [hHead] at hMake
      obtain ⟨c, hMake⟩ := hMake
      simp [hMake]
  | some first =>
      rw [hHead] at hMake
      simp [hMake]

/-- A codec is made if there is no objection, and only then. -/
theorem exists_make_iff : (∃ c, make capacity limit = .ok c) ↔ objections capacity limit = [] := by
  have hMake := make_eq capacity limit
  cases hHead : (objections capacity limit).head? with
  | none =>
      rw [hHead] at hMake
      exact ⟨fun _ => List.head?_eq_none_iff.mp hHead, fun _ => hMake⟩
  | some first =>
      rw [hHead] at hMake
      constructor
      · rintro ⟨c, hOk⟩
        rw [hMake] at hOk
        cases hOk
      · intro hNone
        rw [hNone] at hHead
        cases hHead

/-- Nothing is wrong with a configuration just if there is room for it. -/
theorem objections_eq_nil_iff : objections capacity limit = [] ↔ Admits capacity limit := by
  have hPositive : capacity.toNat.isPowerOfTwo → capacity ≠ 0 := by
    rintro hTwo rfl
    exact Nat.not_isPowerOfTwo_zero hTwo
  rw [Admits]
  cases limit with
  | unbounded =>
      simp only [objections, List.append_eq_nil_iff, ite_eq_left_iff, ite_eq_right_iff,
        List.cons_ne_nil]
      grind
  | bounded slabs =>
      have hOne : 1 ≤ slabs.toNat ↔ slabs ≠ 0 :=
        ⟨fun hLe hZero => by simp [hZero] at hLe, fun h => Nat.pos_of_ne_zero (toNat_ne_zero h)⟩
      simp only [objections, List.append_eq_nil_iff, ite_eq_left_iff, ite_eq_right_iff,
        List.cons_ne_nil, SlabLimit.bounded.injEq]
      grind

/-- A codec that is made has the layout that its capacity and its limit call for. -/
theorem make_lays (h : make capacity limit = .ok c) : c.Lays capacity limit := by
  obtain ⟨offsetBits, slabBits, packs, hCapacity, hMax, hLeast⟩ := make_layout h
  have hOffsetBits : c.offsetBits.toNat = offsetBits := packs.slabShift
  have hWidth : Nat.clog 2 c.maxSlabs.toNat = slabBits :=
    Nat.le_antisymm (Nat.clog_le_of_le_pow packs.maxSlabs)
      (hLeast _ (Nat.le_pow_clog (by decide) _))
  constructor
  case slabCapacity => exact slabCapacity_eq h
  case offsetBits => rw [hOffsetBits, hCapacity, Nat.log2_two_pow]
  case maxSlabs =>
    rw [hMax]
    cases limit with
    | unbounded => rw [slabsWithin, hCapacity, Nat.pow_div packs.offsetBits_lt.le (by decide)]
    | bounded slabs => rfl
  case offsetMask =>
    intro i
    rw [packs.offsetMask, hOffsetBits, Nat.testBit_two_pow_sub_one, decide_eq_true_iff]
  case slabMask =>
    intro i
    rw [packs.slabMask, hOffsetBits, hWidth, Nat.testBit_mul_two_pow, Nat.testBit_two_pow_sub_one,
      Bool.and_eq_true, decide_eq_true_iff, decide_eq_true_iff]
    omega
  case disjoint =>
    apply UInt32.toNat_inj.mp
    rw [UInt32.toNat_and, packs.offsetMask, packs.slabMask, Nat.and_comm,
      Nat.and_two_pow_sub_one_eq_mod, Nat.mul_mod_left]
    rfl

/-- A layout has nothing but its bit ranges and its number of slabs. -/
theorem Packs.ext {c' : Codec} {offsetBits slabBits : Nat} (packs : c.Packs offsetBits slabBits)
    (packs' : c'.Packs offsetBits slabBits) (hMax : c.maxSlabs = c'.maxSlabs) : c = c' := by
  have hOffset : c.offsetMask = c'.offsetMask :=
    UInt32.toNat_inj.mp (packs.offsetMask.trans packs'.offsetMask.symm)
  have hSlab : c.slabMask = c'.slabMask :=
    UInt32.toNat_inj.mp (packs.slabMask.trans packs'.slabMask.symm)
  have hShift : c.slabShift = c'.slabShift :=
    UInt32.toNat_inj.mp (packs.slabShift.trans packs'.slabShift.symm)
  cases c
  cases c'
  simp_all

/-- A codec is told by its capacity and its limit on slabs. -/
theorem eq_of_make {capacity' : UInt32} {limit' : SlabLimit} {c' : Codec}
    (h : make capacity limit = .ok c) (h' : make capacity' limit' = .ok c')
    (hCapacity : capacity = capacity') (hMax : c.maxSlabs = c'.maxSlabs) : c = c' := by
  obtain ⟨offsetBits, slabBits, packs, hPower, -, hLeast⟩ := make_layout h
  obtain ⟨offsetBits', slabBits', packs', hPower', -, hLeast'⟩ := make_layout h'
  obtain rfl : offsetBits = offsetBits' :=
    Nat.pow_right_injective (Nat.le_refl 2)
      (hPower.symm.trans ((congrArg UInt32.toNat hCapacity).trans hPower'))
  obtain rfl : slabBits = slabBits' :=
    Nat.le_antisymm (hLeast _ (hMax ▸ packs'.maxSlabs)) (hLeast' _ (hMax ▸ packs.maxSlabs))
  exact packs.ext packs' hMax

/-- There is a layout for just the configurations that there is room for. It is as narrow as it can
be, two configurations share it just if they have the same capacity and the same number of slabs,
and of what is wrong with the others the first thing is reported. -/
theorem make_iff (capacity : UInt32) (limit : SlabLimit) :
    ((∃ c, make capacity limit = .ok c) ↔ Admits capacity limit) ∧
    (∀ c, make capacity limit = .ok c → c.Lays capacity limit) ∧
    (∀ e, make capacity limit = .error e ↔ (objections capacity limit).head? = some e) ∧
    ∀ c capacity' limit' c', make capacity limit = .ok c → make capacity' limit' = .ok c' →
      (c = c' ↔ capacity = capacity' ∧ c.maxSlabs = c'.maxSlabs) := by
  refine ⟨exists_make_iff.trans objections_eq_nil_iff, fun c => make_lays,
    fun e => make_eq_error_iff, fun c capacity' limit' c' h h' => ⟨?_, fun hSame =>
      eq_of_make h h' hSame.1 hSame.2⟩⟩
  rintro rfl
  exact ⟨(slabCapacity_eq h).symm.trans (slabCapacity_eq h'), rfl⟩

/-- Two slabs of the largest capacity are all that handles can tell apart, so it makes no difference
whether the limit is given; a third slab is one too many, but a capacity that is no power of two is
reported before that. -/
theorem make_iff_largest :
    make 2147483648 (.bounded 2) = .ok ⟨2147483647, 2147483648, 31, 2⟩ ∧
    make 2147483648 .unbounded = .ok ⟨2147483647, 2147483648, 31, 2⟩ ∧
    Lays ⟨2147483647, 2147483648, 31, 2⟩ 2147483648 .unbounded ∧
    ¬Admits 2147483648 (.bounded 3) ∧
    make 2147483648 (.bounded 3) = .error (.slabLimitTooLarge 3 2) ∧
    make 2147483647 (.bounded 3) = .error (.slabCapacityNotPowerOfTwo 2147483647) := by
  have hUnbounded : make 2147483648 .unbounded = .ok ⟨2147483647, 2147483648, 31, 2⟩ := by decide
  have hThree : make 2147483648 (.bounded 3) = .error (.slabLimitTooLarge 3 2) := by decide
  refine ⟨by decide, hUnbounded, (make_iff _ _).2.1 _ hUnbounded, fun admits => ?_, hThree,
    by decide⟩
  obtain ⟨c, hMake⟩ := (make_iff _ _).1.mpr admits
  rw [hThree] at hMake
  cases hMake

end TaskMemory.Codec

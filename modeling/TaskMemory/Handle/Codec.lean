import TaskMemory.Config.Error
import TaskMemory.Config.Limit
import TaskMemory.Handle.Basic

/-!
The bit layout of the handles of one pool: the low bits of a handle hold the offset of a slot in
its slab, the bits above them the index of the slab. `Codec.make` derives the two masks from the
slab capacity and the slab limit. `encode` packs a slab and an offset, `slab` and `offset` read
them back, whatever stands in the bits outside the masks.
-/
namespace TaskMemory

/-- The number of bits needed to write `v`, none for zero. -/
def bitLength (v : UInt32) : UInt32 := if v = 0 then 0 else v.log2 + 1

/-- How the handles of one pool are split into a slab index and a slot offset. -/
structure Codec where
  offsetMask : UInt32
  slabMask : UInt32
  /-- The number of offset bits, which is also where the slab index starts. -/
  slabShift : UInt32
  /-- The effective slab limit: the configured one, or every index a handle can address. -/
  maxSlabs : UInt64
  deriving DecidableEq

namespace Codec

inductive RangeError where
  | offset
  | slab
  deriving DecidableEq

def RangeError.message : RangeError → String
  | .offset => "offset out of range"
  | .slab => "slab index out of range"

def maskAt (shift width : UInt32) : UInt32 :=
  if width = 0 then 0 else (0xFFFFFFFF >>> (32 - width)) <<< shift

/-- The layout for `capacity` slots a slab and at most `limit` slabs. The capacity is checked
before the limit, and a zero before a value that does not fit. -/
def make (capacity : UInt32) (limit : SlabLimit) : Except ConfigError Codec :=
  if capacity = 0 then .error .zeroSlabCapacity
  else if capacity &&& (capacity - 1) ≠ 0 then .error (.slabCapacityNotPowerOfTwo capacity)
  else
    let offsetMask := capacity - 1
    let shift := bitLength offsetMask
    let indexBits := 32 - shift
    let addressable : UInt64 := 1 <<< indexBits.toUInt64
    match limit with
    | .unbounded => .ok ⟨offsetMask, maskAt shift indexBits, shift, addressable⟩
    | .bounded n =>
      if n = 0 then .error .zeroSlabLimit
      else if addressable < n.toUInt64 then .error (.slabLimitTooLarge n addressable)
      else .ok ⟨offsetMask, maskAt shift (bitLength (n - 1)), shift, n.toUInt64⟩

/-- Pack a slab index and an offset that are both in range. -/
def encode (c : Codec) (slab offset : UInt32) : Handle :=
  ⟨((slab <<< c.slabShift) &&& c.slabMask) ||| offset⟩

/-- `encode` for arguments that may be out of range; the offset is looked at first. -/
def encodeChecked (c : Codec) (slab offset : UInt32) : Except RangeError Handle :=
  if c.offsetMask < offset then .error .offset
  else if c.maxSlabs ≤ slab.toUInt64 then .error .slab
  else .ok (c.encode slab offset)

def slab (c : Codec) (h : Handle) : UInt32 := (h.raw &&& c.slabMask) >>> c.slabShift

def offset (c : Codec) (h : Handle) : UInt32 := h.raw &&& c.offsetMask

def slabCapacity (c : Codec) : UInt32 := c.offsetMask + 1

def offsetBits (c : Codec) : UInt32 := c.slabShift

def text (c : Codec) : String :=
  Text.record "HandleCodec" [("offset_mask", toString c.offsetMask),
    ("slab_mask", toString c.slabMask), ("slab_shift", toString c.slabShift),
    ("max_slabs", toString c.maxSlabs)]

end Codec
end TaskMemory

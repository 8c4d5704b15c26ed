/-!
Sizes and alignments of memory blocks.
-/
namespace TaskMemory

/-- The size of a block in bytes and the alignment of its address. -/
structure Layout where
  size : Nat
  align : Nat
  deriving DecidableEq

namespace Layout

/-- The first size that no block can have: offsets inside a block are signed 64-bit numbers. -/
def sizeLimit : Nat := 1 <<< 63

/-- A layout from its two numbers. The alignment has to be a power of two, and the size rounded up
to it has to stay below `sizeLimit`, which a multiple of the alignment does exactly if it is at
most `sizeLimit - align`. -/
def ofSizeAlign? (size align : Nat) : Option Layout :=
  if align.isPowerOfTwo ∧ size ≤ sizeLimit - align ∧ align ≤ sizeLimit then some ⟨size, align⟩
  else none

def invalidMessage : String := "invalid parameters to Layout::from_size_align"

def array (element : Layout) (n : Nat) : Layout := ⟨element.size * n, element.align⟩

/-- The first multiple of `align` that is not below `n`. -/
def roundUp (n align : Nat) : Nat := n + (align - n % align) % align

/-- A block for two things, the second behind the first one, each at an address that suits it. -/
def followedBy (first second : Layout) : Layout :=
  let align := max first.align second.align
  ⟨roundUp (roundUp first.size second.align + second.size) align, align⟩

theorem le_roundUp (n align : Nat) : n ≤ roundUp n align := Nat.le_add_right ..

theorem le_size_followedBy (first second : Layout) : first.size ≤ (first.followedBy second).size :=
  calc first.size
      ≤ roundUp first.size second.align := le_roundUp ..
    _ ≤ roundUp first.size second.align + second.size := Nat.le_add_right ..
    _ ≤ (first.followedBy second).size := le_roundUp ..

end Layout
end TaskMemory

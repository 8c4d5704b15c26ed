import TaskMemory.Tracked.Drop

/-!
What a pool can store. A type says how large its slots are, how its values are dropped, and how they
share their first word with the link of a free slot. A drop has two halves, between which user code
may run: the first half leaves its records, the second one ends, perhaps in a fault.
-/
namespace TaskMemory

class Stored (α : Type) where
  /-- The layout of a slot, which holds either a value or the link of a free slot. -/
  slot : Layout
  /-- A free slot has room for its link. -/
  room_for_link : 4 ≤ slot.size := by decide
  /-- Whether dropping a value does anything. -/
  needsDrop : Bool
  /-- Whether user code can run inside the drop of a value. -/
  runsCode : Bool
  /-- The first half of a drop. -/
  beginDrop : α → Environment → Environment
  /-- The second half of a drop: the fault that it ends in and what is left of the value. The flag
  says that a fault is already under way. -/
  endDrop : Bool → α → Environment → Option Fault × α × Environment
  /-- The first word of a slot after a value has been written into it; the word before is given,
  since a small value does not cover all of it. Types whose values are never looked at in a free
  slot need not say. -/
  firstWord : α → UInt32 → UInt32 := fun _ word => word
  /-- The value that is read from a slot with this first word, where a value has been written. -/
  withFirstWord : UInt32 → α → α := fun _ v => v
  /-- A value that has been written is read back. -/
  withFirstWord_firstWord : ∀ v word, withFirstWord (firstWord v word) v = v := by intros; rfl

namespace Stored

def drop {α : Type} [Stored α] (unwinding : Bool) (v : α) (env : Environment) :
    Option Fault × α × Environment :=
  endDrop unwinding v (beginDrop v env)

/-- A type whose values are plain data: dropping them does nothing that could be observed. -/
abbrev plain (α : Type) (slot : Layout) (needsDrop : Bool)
    (room_for_link : 4 ≤ slot.size := by decide) : Stored α where
  slot := slot
  room_for_link := room_for_link
  needsDrop := needsDrop
  runsCode := false
  beginDrop _ env := env
  endDrop _ v env := (none, v, env)

/-- A byte covers the low eight bits of the first word. -/
instance : Stored UInt8 :=
  { plain UInt8 ⟨4, 4⟩ false with
    firstWord v word := word / 256 * 256 + v.toUInt32
    withFirstWord word _ := word.toUInt8
    withFirstWord_firstWord v word := by
      apply UInt8.toNat_inj.mp
      simp }

/-- The low half of a number of 64 bits is the first word. -/
instance : Stored UInt64 :=
  { plain UInt64 ⟨8, 8⟩ false with
    firstWord v _ := v.toUInt32
    withFirstWord word v := v / 4294967296 * 4294967296 + word.toUInt64
    withFirstWord_firstWord v _ := by
      have bound := v.toNat_lt
      apply UInt64.toNat_inj.mp
      simp
      omega }

/-- There is nothing to write, so the first word stays. -/
instance : Stored Unit := plain Unit ⟨4, 4⟩ false

/-- A string owns its text, so it has to be dropped, which leaves no trace. -/
instance : Stored String := plain String ⟨24, 8⟩ true

/-- The drop of a tracked value is recorded at once; a bomb goes off at the end. -/
instance : Stored Tracked where
  slot := ⟨16, 8⟩
  needsDrop := true
  runsCode := true
  beginDrop v env := env.noteDrop v.id
  endDrop unwinding v env := (v.detonate unwinding, v, env)

end Stored

/-- A type whose values can be changed in place by an operand of the same type. -/
class Editable (α : Type) where
  edit : α → α → α

instance : Editable UInt8 := ⟨(· + ·)⟩

instance : Editable UInt64 := ⟨(· + ·)⟩

instance : Editable Unit := ⟨fun _ _ => ()⟩

instance : Editable String := ⟨(· ++ ·)⟩

instance : Editable Tracked := ⟨fun v operand => { v with id := operand.id }⟩

end TaskMemory

import TaskMemory.Handle.Basic
import TaskMemory.Memory.Layout

/-!
The diagnostic events that the components raise, each with its level, its source and its fields.
-/
namespace TaskMemory

inductive Event where
  /-- An allocation was asked for, whether or not it was granted. -/
  | allocated (block : Layout)
  | deallocated (block : Layout)
  /-- A slab has been appended to a pool. -/
  | slabCreated (slab capacity : UInt32) (bytes : Nat)
  | constructed (slab offset : UInt32) (handle : Handle)
  | poolExhausted (maxSlabs : UInt64)
  /-- A callable broke off; its fault ends here. -/
  | payloadFailed (reason : String) (bytes : Nat)
  | entryConstructed (key : UInt64) (typeName : String) (bytes entries : Nat)
  deriving DecidableEq

namespace Event

def level : Event → String
  | .allocated _ | .deallocated _ | .constructed .. => "TRACE"
  | .slabCreated .. | .entryConstructed .. => "DEBUG"
  | .poolExhausted _ => "WARN"
  | .payloadFailed .. => "ERROR"

def target : Event → String
  | .allocated _ | .deallocated _ => "taskweave::alloc"
  | .slabCreated .. | .constructed .. | .poolExhausted _ => "taskweave::pool"
  | .payloadFailed .. => "taskweave::payload"
  | .entryConstructed .. => "taskweave::store"

def message : Event → String
  | .allocated _ => "ALLOCATED"
  | .deallocated _ => "DEALLOCATED"
  | .slabCreated .. => "created slab"
  | .constructed .. => "constructed"
  | .poolExhausted _ => "pool exhausted"
  | .payloadFailed .. => "payload panicked during invoke"
  | .entryConstructed .. => "constructed shared entry"

inductive Field where
  | number (n : Nat)
  | text (s : String)
  deriving DecidableEq

def fields : Event → List (String × Field)
  | .allocated block | .deallocated block =>
    [("bytes", .number block.size), ("align", .number block.align)]
  | .slabCreated slab capacity bytes =>
    [("slab", .number slab.toNat), ("capacity", .number capacity.toNat), ("bytes", .number bytes)]
  | .constructed slab offset handle =>
    [("slab", .number slab.toNat), ("offset", .number offset.toNat),
      ("handle", .number handle.raw.toNat)]
  | .poolExhausted maxSlabs => [("max_slabs", .number maxSlabs.toNat)]
  | .payloadFailed reason bytes => [("reason", .text reason), ("bytes", .number bytes)]
  | .entryConstructed key typeName bytes entries =>
    [("key", .number key.toNat), ("type_name", .text typeName), ("bytes", .number bytes),
      ("entries", .number entries)]

end Event
end TaskMemory

import TaskMemory.Memory.Layout
import TaskMemory.Store.Object
import TaskMemory.Tracked.Drop

/-!
The objects that a client puts into a shared store. Every kind has a name, a size and an alignment,
and a default object.
-/
namespace TaskMemory

inductive Kind where
  | uint8 | uint32 | uint64 | int64 | bool | string | list | pair | optional | block | unit
  | tracked | counter
  deriving DecidableEq

namespace Kind

def name : Kind → String
  | .uint8 => "u8"
  | .uint32 => "u32"
  | .uint64 => "u64"
  | .int64 => "i64"
  | .bool => "bool"
  | .string => "alloc::string::String"
  | .list => "alloc::vec::Vec<u32>"
  | .pair => "(u8, u32)"
  | .optional => "core::option::Option<u64>"
  | .block => "[u64; 16]"
  | .unit => "()"
  | .tracked => "oracle_driver::util::Tracked"
  | .counter => "oracle_driver::store_op::Counter"

def layout : Kind → Layout
  | .uint8 | .bool => ⟨1, 1⟩
  | .uint32 => ⟨4, 4⟩
  | .uint64 | .int64 | .counter => ⟨8, 8⟩
  | .string | .list => ⟨24, 8⟩
  | .pair => ⟨8, 4⟩
  | .optional | .tracked => ⟨16, 8⟩
  | .block => ⟨128, 8⟩
  | .unit => ⟨0, 1⟩

instance : ObjectKind Kind := ⟨name, layout⟩

end Kind

inductive Value where
  | uint8 (n : UInt8)
  | uint32 (n : UInt32)
  | uint64 (n : UInt64)
  | int64 (n : Int64)
  | bool (b : Bool)
  | string (s : String)
  | list (numbers : List UInt32)
  | pair (first : UInt8) (second : UInt32)
  | optional (n : Option UInt64)
  | block (numbers : List UInt64)
  | unit
  | tracked (v : Tracked)
  /-- A number that can be added to through a shared reference. -/
  | counter (n : UInt64)
  deriving DecidableEq

namespace Value

def kind : Value → Kind
  | .uint8 _ => .uint8
  | .uint32 _ => .uint32
  | .uint64 _ => .uint64
  | .int64 _ => .int64
  | .bool _ => .bool
  | .string _ => .string
  | .list _ => .list
  | .pair .. => .pair
  | .optional _ => .optional
  | .block _ => .block
  | .unit => .unit
  | .tracked _ => .tracked
  | .counter _ => .counter

def blockLength : Nat := 16

def default : Kind → Value
  | .uint8 => .uint8 0
  | .uint32 => .uint32 0
  | .uint64 => .uint64 0
  | .int64 => .int64 0
  | .bool => .bool false
  | .string => .string ""
  | .list => .list []
  | .pair => .pair 0 0
  | .optional => .optional none
  | .block => .block (List.replicate blockLength 0)
  | .unit => .unit
  | .tracked => .tracked { id := 0 }
  | .counter => .counter 0

/-- Add to a counter, modulo its width; other objects stay as they are. -/
def add (amount : UInt64) : Value → Value
  | .counter n => .counter (n + amount)
  | v => v

/-- Drop an object. Only tracked ones leave a trace. -/
def drop (unwinding : Bool) (v : Value) (env : Environment) : Option Fault × Environment :=
  match v with
  | .tracked v => v.drop unwinding env
  | _ => (none, env)

theorem kind_default (k : Kind) : (default k).kind = k := by cases k <;> rfl

instance : Object Value Kind where
  kind := kind
  default k := .ok (default k)
  drop := drop
  kind_default k v h := by
    cases h
    exact kind_default k

end Value
end TaskMemory

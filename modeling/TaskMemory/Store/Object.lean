import TaskMemory.Environment
import TaskMemory.Fault

/-!
What a shared store knows of the objects that it holds. Every object has a kind. Kinds are told
apart by themselves and not by their names, which only appear in texts.
-/
namespace TaskMemory

/-- Kinds of objects: a kind has a name, and all its objects have the same layout. -/
class ObjectKind (κ : Type) where
  name : κ → String
  layout : κ → Layout

/-- Objects of such kinds. -/
class Object (υ : Type) (κ : outParam Type) where
  kind : υ → κ
  /-- The default object of a kind, or the fault that making it raises. -/
  default : κ → Except Fault υ
  /-- The fault that the drop of an object ends in. The flag says that a fault is already under
  way. -/
  drop : Bool → υ → Environment → Option Fault × Environment
  kind_default : ∀ k v, default k = .ok v → kind v = k

end TaskMemory

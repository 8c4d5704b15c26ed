import TaskMemory.Memory.Table
import TaskMemory.Store.Object

/-!
Shared stores: objects of any kind under numeric keys. The first construction under a key fixes its
object for good; later requests get that object, provided they ask for its kind. Objects have
blocks of their own, so the table of entries can move without them.
-/
namespace TaskMemory

/-- An entry of a store: the key, the kind of the object, and which object it is. -/
structure Entry (κ : Type) where
  key : UInt64
  kind : κ
  object : Nat
  deriving DecidableEq

/-- The object of an entry, for a request at a kind. -/
def Entry.view {κ : Type} [ObjectKind κ] [DecidableEq κ] (e : Entry κ) (kind : κ) :
    Except Fault Nat :=
  if e.kind = kind then .ok e.object
  else .error (.wrongType e.key (ObjectKind.name e.kind) (ObjectKind.name kind))

/-- A store: the table of its entries, and the objects. -/
structure Store (κ υ : Type) where
  table : Table (Entry κ) := {}
  objects : Array υ := #[]

namespace Store

/-- The block that an entry takes up in the table. -/
def tableEntry : Layout := ⟨72, 8⟩

variable {κ υ : Type}

def entries (s : Store κ υ) : List (Entry κ) := s.table.items.toList

def len (s : Store κ υ) : Nat := s.table.size

def isEmpty (s : Store κ υ) : Bool := s.len = 0

def find? (s : Store κ υ) (key : UInt64) : Option (Entry κ) :=
  s.table.items.find? (·.key = key)

def contains (s : Store κ υ) (key : UInt64) : Bool := (s.find? key).isSome

def object? (s : Store κ υ) (object : Nat) : Option υ := s.objects[object]?

def modify (s : Store κ υ) (object : Nat) (change : υ → υ) : Store κ υ :=
  { s with objects := s.objects.modify object change }

/-- The outcome of a request that constructs an object if there is none. -/
structure Access (κ υ : Type) where
  outcome : Except Fault Nat
  constructed : Bool
  store : Store κ υ
  env : Environment

variable [ObjectKind κ]

/-- The object under a key, for a request at a kind. -/
def get? [DecidableEq κ] (s : Store κ υ) (kind : κ) (key : UInt64) : Except Fault (Option Nat) :=
  match s.find? key with
  | none => .ok none
  | some e => (e.view kind).map some

/-- What the texts of a store show of its entries. -/
def shown (s : Store κ υ) : List (String × String) :=
  s.entries.map fun e => (toString e.key, Text.quoted (ObjectKind.name e.kind))

def text (s : Store κ υ) : String := Text.map s.shown

/-- The display text of a store, with one entry a line. -/
def pretty (s : Store κ υ) : String := Text.mapLines s.shown

variable [Object υ κ]

/-- Append an object under a key: its block is obtained first, then the table makes room. -/
def insert (s : Store κ υ) (key : UInt64) (v : υ) (env : Environment) :
    Nat × Store κ υ × Environment :=
  let object := s.objects.size
  let kind := Object.kind v
  let env := env.allocate (ObjectKind.layout kind)
  match s.table.push tableEntry ⟨key, kind, object⟩ env with
  | (table, env) =>
    (object, { table, objects := s.objects.push v },
      env.raise (.entryConstructed key (ObjectKind.name kind) (ObjectKind.layout kind).size
        table.size))

/-- The object under a key, which is constructed if there is none. `init` stands for the
constructor: the object that it returns, or the fault that it raises, which leaves the store as it
is. It is not called when the key has an object. -/
def getOrConstruct [DecidableEq κ] (s : Store κ υ) (kind : κ) (key : UInt64)
    (init : Except Fault υ) (env : Environment) : Access κ υ :=
  match s.find? key with
  | some e => ⟨e.view kind, false, s, env⟩
  | none =>
    match init with
    | .error fault => ⟨.error fault, true, s, env⟩
    | .ok v =>
      match s.insert key v env with
      | (object, s, env) => ⟨.ok object, true, s, env⟩

/-- The object under a key, which is the default one of its kind if there was none. -/
def getOrDefault [DecidableEq κ] (s : Store κ υ) (kind : κ) (key : UInt64) (env : Environment) :
    Access κ υ :=
  s.getOrConstruct kind key (Object.default kind) env

/-- Drop objects in order and give their blocks back, up to the first fault. -/
def dropObjects (s : Store κ υ) : List (Entry κ) → Environment → Option Fault × Environment
  | [], env => (none, env)
  | e :: rest, env =>
    match (s.object? e.object).elim (none, env) (fun v => Object.drop false v env) with
    | (some fault, env) => (some fault, env)
    | (none, env) => s.dropObjects rest (env.release (ObjectKind.layout e.kind))

/-- Drop the objects in the order of their construction, then give the table back. A fault leaves
its object's block and everything after it as they are; the table is given back all the same. -/
def dispose (s : Store κ υ) (env : Environment) : Option Fault × Environment :=
  match s.dropObjects s.entries env with
  | (fault, env) => (fault, s.table.release tableEntry env)

end Store
end TaskMemory

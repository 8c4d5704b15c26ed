import TaskMemory.Pool.Host

/-!
Programs that use a pool, and the journal of a run. A program is a finite course of operations;
where the pool lets user code run, it says which program runs there, so programs nest to any depth.
The journal holds a book in which the pool is a plain map from handles to values, kept without
looking at the pool: a value is entered when its construction succeeds, replaced when it is changed
in place, and struck out before its destruction begins or when it is taken. The journal also holds
what the pool answered and a view of everything between any two operations.
-/
namespace TaskMemory.Pool

/-- A value as the book has it: its handle, the number of its construction, and what was stored
last. -/
structure Holding (α : Type) where
  handle : Handle
  birth : Nat
  value : α
  deriving DecidableEq

/-- What became of a value. -/
inductive Farewell (α : Type) where
  | dropped (birth : Nat) (v : α)
  /-- It was taken, which moves it out undropped. -/
  | taken (birth : Nat) (v : α)
  /-- It did not get into the pool and was dropped there and then. -/
  | refused (v : α)

/-- The pool as a plain map, and the history that the map does not show. -/
structure Book (α : Type) where
  contents : List (Holding α) := []
  /-- The values whose drop is running, the innermost one first. -/
  closing : List (Holding α) := []
  /-- What the drops that ended in a fault have left in their slots. -/
  spent : List (Holding α) := []
  /-- The number of constructions whose code is running. -/
  inits : Nat := 0
  births : Nat := 0
  /-- The values that are gone, in the order in which they went. -/
  farewells : List (Farewell α) := []

namespace Book

variable {α : Type}

/-- The value behind a handle, if the handle can be used. -/
def find? (b : Book α) (h : Handle) : Option (Holding α) := b.contents.find? (·.handle = h)

def without (b : Book α) (h : Handle) : List (Holding α) := b.contents.eraseP (·.handle = h)

def enter (b : Book α) : Book α := { b with inits := b.inits + 1 }

def leave (b : Book α) : Book α := { b with inits := b.inits - 1 }

/-- A construction succeeds. -/
def lodge (b : Book α) (h : Handle) (v : α) : Book α :=
  { b with contents := b.contents ++ [⟨h, b.births, v⟩], births := b.births + 1 }

def refuse (b : Book α) (v : α) : Book α := { b with farewells := b.farewells ++ [.refused v] }

def store (b : Book α) (r : Holding α) (v : α) : Book α :=
  { b with contents := b.without r.handle ++ [{ r with value := v }] }

def handOut (b : Book α) (r : Holding α) : Book α :=
  { b with
    contents := b.without r.handle
    farewells := b.farewells ++ [.taken r.birth r.value] }

/-- The drop of a value begins. -/
def close (b : Book α) (r : Holding α) : Book α :=
  { b with
    contents := b.without r.handle
    closing := r :: b.closing
    farewells := b.farewells ++ [.dropped r.birth r.value] }

/-- The innermost drop ends. -/
def settle (b : Book α) : Book α := { b with closing := b.closing.tail }

/-- The innermost drop ends in a fault and leaves this behind. -/
def spoil (b : Book α) (rest : Holding α) : Book α :=
  { b with closing := b.closing.tail, spent := b.spent ++ [rest] }

end Book

/-- What the pool answered when it was asked for a value, beside what was stored there last. -/
structure Reply (α : Type) where
  handle : Handle
  stored : α
  given : Except Fault (Option α)

/-- The book of a run, and what was seen on the way. -/
structure Journal (α : Type) where
  book : Book α := {}
  /-- Everything as it was between the operations, whatever code was running then. -/
  views : List (Host α (Book α)) := []
  replies : List (Reply α) := []

/-- A pool in the hands of a program. -/
abbrev Usage (α : Type) := Host α (Journal α)

/-- A finite course of operations on a pool. -/
inductive Program (α : Type) where
  | done
  /-- Construct a value. One program runs while the block of a new slab is obtained, one while the
  value is built; the latter may end in a fault. -/
  | construct (v : α) (growing building : Program α) (failure : Option Fault) (rest : Program α)
  | get (h : Handle) (rest : Program α)
  | edit (h : Handle) (change : α → α) (rest : Program α)
  /-- Destroy a value; a program runs inside its drop, if user code can. -/
  | destroy (h : Handle) (dropping rest : Program α)
  | take (h : Handle) (rest : Program α)

namespace Usage

variable {α : Type}

/-- A pool in the hands of a program that has not begun. -/
def start (p : Pool α) (env : Environment) : Usage α := ⟨p, env, {}⟩

def record (entry : Book α → Book α) (w : Usage α) : Usage α :=
  { w with state := { w.state with book := entry w.state.book } }

def look (w : Usage α) : Usage α :=
  { w with state := { w.state with views := w.state.views ++ [⟨w.pool, w.env, w.state.book⟩] } }

/-- Note what the pool answered when asked for a value. -/
def note (r : Holding α) (given : Except Fault (Option α)) (w : Usage α) : Usage α :=
  { w with state := { w.state with replies := w.state.replies ++ [⟨r.handle, r.value, given⟩] } }

variable [Stored α]

/-- Construct a value by code that may end in a fault. -/
def construct (v : α) (growing building : Usage α → Usage α) (failure : Option Fault)
    (w : Usage α) : Usage α :=
  match Host.construct v (fun w => ((), growing w))
      (fun w => ((), record Book.leave (building (record Book.enter w)))) failure w with
  | (⟨.ok h, _, _⟩, w) => record (·.lodge h v) w
  | (⟨.error _, _, _⟩, w) => record (·.refuse v) w

def get (r : Holding α) (w : Usage α) : Usage α := note r (w.get? r.handle) w

def edit (r : Holding α) (change : α → α) (w : Usage α) : Usage α :=
  match w.get? r.handle with
  | .ok (some v) =>
    record (·.store r (change r.value))
      (note r (.ok (some v)) (w.set r.handle (change v)))
  | given => note r given w

/-- The moment in which the drop of a value by a destruction begins. -/
def close (r : Holding α) (w : Usage α) : Usage α := record (·.close r) w

/-- What is left in the slot of a value whose drop has ended in a fault. -/
def leftover (r : Holding α) (w : Usage α) : Holding α :=
  { r with value := ((w.pool.slot? (w.pool.place r.handle)).bind Slot.read?).getD r.value }

def destroy (r : Holding α) (dropping : Usage α → Usage α) (w : Usage α) : Usage α :=
  match Host.destroy r.handle (fun w => ((), dropping w)) (close r w) with
  | (.ok (), _, w) => record Book.settle w
  | (.error _, _, w) => record (·.spoil (leftover r w)) w

def take (r : Holding α) (w : Usage α) : Usage α :=
  match Host.take r.handle w with
  | (given, w) => record (·.handOut r) (note r given w)

end Usage

variable {α : Type} [Stored α]

/-- Work through a handle that can be used; other handles are left alone. -/
def Usage.through (h : Handle) (work : Holding α → Usage α → Usage α) (w : Usage α) : Usage α :=
  match w.state.book.find? h with
  | some r => work r w
  | none => w

/-- Run a program, looking at everything before each operation and at the end. -/
def Program.run : Program α → Usage α → Usage α
  | .done, w => w.look
  | .construct v growing building failure rest, w =>
    rest.run (w.look.construct v growing.run building.run failure)
  | .get h rest, w => rest.run (w.look.through h Usage.get)
  | .edit h change rest, w => rest.run (w.look.through h (Usage.edit · change))
  | .destroy h dropping rest, w => rest.run (w.look.through h (Usage.destroy · dropping.run))
  | .take h rest, w => rest.run (w.look.through h Usage.take)

/-- A pool of slabs with two slots each. -/
def pair (α : Type) : Pool α :=
  { codec := ⟨1, 0xFFFFFFFE, 1, 2147483648⟩, limit := .unbounded }

omit [Stored α] in
theorem create_pair : Pool.create { slabCapacity := 2 } = .ok (pair α) := rfl

/-- Memory that nobody has used, under a counting layer. -/
def untouched : Environment := { resource := (Resource.ofPolicy .unlimited).counted }

/-- A course of operations in which user code works on the pool at all three moments: one value is
built while another one is, a value is changed while the block of the second slab is obtained, and a
value is read inside the drop of another one. One construction fails. -/
def Program.nested : Program Tracked :=
  .construct ⟨1, false⟩ .done (.construct ⟨2, false⟩ .done .done none .done) none <|
  .construct ⟨3, false⟩ (.edit ⟨1⟩ (fun v => { v with id := 4 }) .done) .done none <|
  .construct ⟨5, false⟩ .done .done (some .wordless) <|
  .destroy ⟨0⟩ (.get ⟨1⟩ .done) <|
  .take ⟨1⟩ .done

/-- A value is put into the pool whose drop ends in a fault. -/
def Program.armed : Program Tracked := .construct ⟨7, true⟩ .done .done none .done

end TaskMemory.Pool

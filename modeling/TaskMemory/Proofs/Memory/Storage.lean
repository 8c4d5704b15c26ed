import TaskMemory.Memory.Table

/-!
A table as it lies in memory: its entries are in the cells of a block, and when the block is full
they are moved to a larger one. The memory says when a table makes a mistake. Only cells with an
entry can be read, only empty ones can be written to, and a block can be given back once, without
entries, under the layout that it was obtained with. So an entry is in one cell at any time.
-/
namespace TaskMemory

/-- There can be a block with this layout. -/
def Layout.Possible (block : Layout) : Prop :=
  (Layout.ofSizeAlign? block.size block.align).isSome

instance (block : Layout) : Decidable block.Possible :=
  inferInstanceAs (Decidable (Option.isSome _ = true))

/-- A block is granted; one without bytes is not asked for. -/
def Environment.Grants (env : Environment) (block : Layout) : Prop :=
  block.size ≠ 0 → (env.resource.allocate block).1 = true

instance (env : Environment) (block : Layout) : Decidable (env.Grants block) :=
  inferInstanceAs (Decidable (_ → _))

theorem Layout.Possible.mono {entry : Layout} {m n : Nat} (possible : (entry.array n).Possible)
    (h : m ≤ n) : (entry.array m).Possible := by
  have hSize : (entry.array m).size ≤ (entry.array n).size := Nat.mul_le_mul_left entry.size h
  rw [Possible, ofSizeAlign?] at possible ⊢
  split at possible
  · next proper =>
      rw [if_pos ⟨proper.1, Nat.le_trans hSize proper.2.1, proper.2.2⟩]
      rfl
  · cases possible

namespace Table

variable {α : Type}

/-- A block with its cells. -/
structure Block (α : Type) where
  layout : Layout
  cells : List (Option α)

/-- The environment, and the blocks obtained so far, `none` for one that has been given back. -/
structure Storage (α : Type) where
  env : Environment
  blocks : List (Option (Block α)) := []

/-- What the work on a table can break off at. -/
inductive Breach where
  /-- There is no layout for a block of this size. -/
  | tooLarge
  /-- The memory refuses a block. -/
  | refused
  /-- There is no such cell, or there is no entry in it to be read, or one in the way. -/
  | wrongCell
  /-- A block is to be given back that is not out, has entries, or has another layout. -/
  | wrongBlock
  deriving DecidableEq

/-- It is for want of memory, and not by a mistake of the table. -/
def Breach.OfMemory (b : Breach) : Prop := b = .tooLarge ∨ b = .refused

namespace Storage

variable (s : Storage α)

/-- Obtain a block with so many cells, and its number. -/
def obtain (block : Layout) (room : Nat) : Except Breach (Nat × Storage α) :=
  if block.Possible then
    if s.env.Grants block then
      .ok (s.blocks.length,
        ⟨s.env.allocate block, s.blocks ++ [some ⟨block, List.replicate room none⟩]⟩)
    else .error .refused
  else .error .tooLarge

def giveBack (number : Nat) (block : Layout) : Except Breach (Storage α) :=
  match s.blocks[number]? with
  | some (some b) =>
    if b.layout = block ∧ b.cells.all Option.isNone then
      .ok ⟨s.env.release block, s.blocks.set number none⟩
    else .error .wrongBlock
  | _ => .error .wrongBlock

/-- The entry in a cell of a block. -/
def look (number i : Nat) : Except Breach α :=
  match s.blocks[number]? with
  | some (some b) => match b.cells[i]? with
    | some (some a) => .ok a
    | _ => .error .wrongCell
  | _ => .error .wrongCell

/-- Take the entry out of a cell. -/
def take (number i : Nat) : Except Breach (α × Storage α) :=
  match s.blocks[number]? with
  | some (some b) => match b.cells[i]? with
    | some (some a) =>
      .ok (a, { s with blocks := s.blocks.set number (some { b with cells := b.cells.set i none }) })
    | _ => .error .wrongCell
  | _ => .error .wrongCell

/-- Put an entry into an empty cell. -/
def put (number i : Nat) (a : α) : Except Breach (Storage α) :=
  match s.blocks[number]? with
  | some (some b) => match b.cells[i]? with
    | some none =>
      .ok { s with
        blocks := s.blocks.set number (some { b with cells := b.cells.set i (some a) }) }
    | _ => .error .wrongCell
  | _ => .error .wrongCell

/-- Move so many entries, from a cell on, to the same cells of another block. -/
def move (source target : Nat) : Nat → Nat → Storage α → Except Breach (Storage α)
  | 0, _, s => .ok s
  | count + 1, i, s => do
    let (a, s) ← s.take source i
    move source target count (i + 1) (← s.put target i a)

/-- Drop so many entries, from a cell on. -/
def dropEntries (drop : α → Environment → Environment) (number : Nat) :
    Nat → Nat → Storage α → Except Breach (Storage α)
  | 0, _, s => .ok s
  | count + 1, i, s => do
    let (a, s) ← s.take number i
    dropEntries drop number count (i + 1) { s with env := drop a s.env }

end Storage

/-- A table by its block: the block's number, the number of entries, and that of the cells. -/
structure Frame where
  block : Nat := 0
  size : Nat := 0
  capacity : Nat := 0
  deriving DecidableEq

namespace Frame

variable (entry : Layout) (f : Frame)

/-- Move to a block of the next capacity. -/
def grow (s : Storage α) : Except Breach (Frame × Storage α) := do
  let capacity := nextCapacity f.capacity
  let (block, s) ← s.obtain (entry.array capacity) capacity
  if f.capacity = 0 then return ({ f with block, capacity }, s)
  let s ← s.move f.block block f.size 0
  return ({ f with block, capacity }, ← s.giveBack f.block (entry.array f.capacity))

def push (a : α) (s : Storage α) : Except Breach (Frame × Storage α) := do
  let (f, s) ← if f.size = f.capacity then f.grow entry s else pure (f, s)
  return ({ f with size := f.size + 1 }, ← s.put f.block f.size a)

def get? (i : Nat) (s : Storage α) : Except Breach (Option α) :=
  if i < f.size then some <$> s.look f.block i else .ok none

def dispose (drop : α → Environment → Environment) (s : Storage α) :
    Except Breach (Storage α) := do
  let s ← s.dropEntries drop f.block f.size 0
  if f.capacity = 0 then return s
  s.giveBack f.block (entry.array f.capacity)

/-- Fill a new table, one entry after the other. -/
def fill (as : List α) (env : Environment) : Except Breach (Frame × Storage α) :=
  as.foldlM (fun x a => x.1.push entry a x.2) ({}, { env })

end Frame

section

variable {β : Type} {front back : List β} {x y : β} {i : Nat}

theorem getElem?_middle (h : front.length = i) : (front ++ x :: back)[i]? = some x := by
  subst h
  simp

theorem set_middle (h : front.length = i) :
    (front ++ x :: back).set i y = front ++ y :: back := by
  subst h
  simp

end

namespace Storage

variable {front back : List (Option (Block α))} {before after : List (Option α)}
  {env : Environment} {layout : Layout} {number i : Nat} {a : α}

/-- An entry is taken out of its place, which stays empty, and nothing else changes. -/
theorem take_middle (hNumber : front.length = number) (hCell : before.length = i) :
    take ⟨env, front ++ some ⟨layout, before ++ some a :: after⟩ :: back⟩ number i =
      .ok (a, ⟨env, front ++ some ⟨layout, before ++ none :: after⟩ :: back⟩) := by
  simp only [take, getElem?_middle hNumber, getElem?_middle hCell, set_middle hNumber,
    set_middle hCell]

theorem put_middle (hNumber : front.length = number) (hCell : before.length = i) :
    put ⟨env, front ++ some ⟨layout, before ++ none :: after⟩ :: back⟩ number i a =
      .ok ⟨env, front ++ some ⟨layout, before ++ some a :: after⟩ :: back⟩ := by
  simp only [put, getElem?_middle hNumber, getElem?_middle hCell, set_middle hNumber,
    set_middle hCell]

/-- A block whose entries have all left may be given back. -/
theorem giveBack_middle (hNumber : front.length = number) (room : Nat) :
    giveBack ⟨env, front ++ some ⟨layout, List.replicate room none⟩ :: back⟩ number layout =
      .ok ⟨env.release layout, front ++ none :: back⟩ := by
  have hEmpty : (List.replicate room (none : Option α)).all Option.isNone = true := by
    simp
  simp only [giveBack, getElem?_middle hNumber, set_middle hNumber, hEmpty, and_self, if_true]

/-- Two blocks behind those that have been given back. The entries in front have moved from the
first one to the second, and the others are still where they were. -/
def midway (env : Environment) (past : Nat) (source target : Layout) (spare : Nat)
    (moved rest : List α) : Storage α :=
  ⟨env, List.replicate past none ++
    [some ⟨source, List.replicate moved.length none ++ rest.map some⟩,
      some ⟨target, moved.map some ++ List.replicate (rest.length + spare) none⟩]⟩

/-- The entries move one by one from the old block to the new one. By induction on those that are
left. -/
theorem move_midway (env : Environment) (past : Nat) (source target : Layout) (spare : Nat)
    (moved rest : List α) :
    move past (past + 1) rest.length moved.length (midway env past source target spare moved rest) =
      .ok (midway env past source target spare (moved ++ rest) []) := by
  induction rest generalizing moved with
  | nil => rw [List.append_nil]; rfl
  | cons a rest ih =>
      have hTake : take (midway env past source target spare moved (a :: rest)) past moved.length =
          .ok (a, ⟨env, List.replicate past none ++
            [some ⟨source, List.replicate moved.length none ++ none :: rest.map some⟩,
              some ⟨target, moved.map some ++ List.replicate ((a :: rest).length + spare) none⟩]⟩) :=
        take_middle List.length_replicate List.length_replicate
      have hPut : put ⟨env, List.replicate past none ++
            [some ⟨source, List.replicate moved.length none ++ none :: rest.map some⟩,
              some ⟨target, moved.map some ++ List.replicate ((a :: rest).length + spare) none⟩]⟩
            (past + 1) moved.length a =
          .ok (midway env past source target spare (moved ++ [a]) rest) := by
        have hSpare : (a :: rest).length + spare = rest.length + spare + 1 := Nat.succ_add ..
        rw [List.append_cons, hSpare, List.replicate_succ, put_middle (by simp) (List.length_map _),
          midway]
        simp [List.replicate_succ']
      have hRest := ih (moved ++ [a])
      rw [List.length_append, List.append_assoc] at hRest
      rw [List.length_cons, move, hTake]
      change put _ (past + 1) moved.length a >>= move past (past + 1) rest.length _ = _
      rw [hPut]
      exact hRest

/-- A block behind those that have been given back. The entries in front have been dropped. -/
def ebbing (env : Environment) (past : Nat) (layout : Layout) (gone spare : Nat) (rest : List α) :
    Storage α :=
  ⟨env, List.replicate past none ++
    [some ⟨layout, List.replicate gone none ++ (rest.map some ++ List.replicate spare none)⟩]⟩

/-- Entries are dropped from the front. By induction on those that are left. -/
theorem dropEntries_ebbing (drop : α → Environment → Environment) (env : Environment) (past : Nat)
    (layout : Layout) (gone spare : Nat) (rest : List α) :
    dropEntries drop past rest.length gone (ebbing env past layout gone spare rest) =
      .ok (ebbing (rest.foldl (fun env a => drop a env) env) past layout (gone + rest.length) spare
        []) := by
  induction rest generalizing gone env with
  | nil => rfl
  | cons a rest ih =>
      have hTake : take (ebbing env past layout gone spare (a :: rest)) past gone =
          .ok (a, ebbing env past layout (gone + 1) spare rest) := by
        refine (take_middle List.length_replicate List.length_replicate).trans ?_
        rw [ebbing, List.replicate_succ', List.append_assoc]
        rfl
      have hRest := ih (drop a env) (gone + 1)
      rw [Nat.add_assoc, Nat.add_comm 1] at hRest
      rw [List.length_cons, dropEntries, hTake]
      exact hRest

end Storage

end Table
end TaskMemory

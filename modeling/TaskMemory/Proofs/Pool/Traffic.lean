import TaskMemory.Pool.Host
import TaskMemory.Proofs.Parallel

/-!
Threads at one pool, step by step. A slot taken off a free list or put back, a section under the
exclusive lock of the directory, a block obtained or given back and a change of the counter of live
values are one step each. While a construction looks at the slabs one after the other it holds the
directory shared, so no slab is appended meanwhile. A value that has been constructed can be
destroyed or taken once, by any thread.
-/
namespace TaskMemory.Pool

/-- How far a call has come. -/
inductive Stage (α : Type) where
  /-- The directory is held, and this slab is looked at next. -/
  | scanning (v : α) (next : Nat)
  /-- No slot was found below the limit: a block for a new slab is obtained next. -/
  | growing (v : α)
  /-- With the block in hand, the exclusive section is next. -/
  | grown (v : α) (block : Nat)
  /-- The block is not needed, since a slot was found after all or the limit has been reached. -/
  | surplus (v : α) (block : Nat) (found : Option Place)
  /-- There is no slot for the value, which is dropped next. -/
  | refused (v : α) (refusal : Refusal)
  | claimed (v : α) (site : Place)
  /-- The value is in its slot and is counted next. -/
  | stored (v : α) (site : Place)
  /-- A value is destroyed: the first half of its drop is next. -/
  | closing (h : Handle) (v : α)
  | dropping (h : Handle) (v : α)
  /-- A value is taken: it is moved out next. -/
  | moving (h : Handle) (v : α)
  /-- The value is gone, and its slot is put back next. -/
  | emptied (site : Place) (given : Option α)
  /-- The slot is back, and the value is no longer counted after the next step. -/
  | released (given : Option α)
  deriving DecidableEq

/-- A call and its number in the order of the starts. -/
structure Call (α : Type) where
  number : Nat
  stage : Stage α
  deriving DecidableEq

namespace Call

variable {α : Type}

/-- What is left of a call after a step. -/
def left (t : Call α) (rest : Option (Stage α)) : List (Call α) :=
  (rest.map (⟨t.number, ·⟩)).toList

theorem flatMap_left {β : Type} (t : Call α) (rest : Option (Stage α)) (f : Stage α → List β) :
    (t.left rest).flatMap (fun c => f c.stage) = rest.elim [] f := by
  cases rest <;> simp [left]

theorem countP_left (t : Call α) (rest : Option (Stage α)) (q : Stage α → Bool) :
    (t.left rest).countP (fun c => q c.stage) = if rest.any q then 1 else 0 := by
  cases rest with
  | none => rfl
  | some stage => exact List.countP_singleton

end Call

/-- What a call does in one step. -/
inductive Act (α : Type) where
  /-- It comes nearer to its end, and nothing is handed out or given back. -/
  | proceeded
  /-- A free slot is handed out. -/
  | granted (site : Place)
  /-- A block becomes a slab, whose first slot is handed out. -/
  | appended (block : Nat) (site : Place)
  | obtained (block : Nat)
  | discarded (block : Nat)
  /-- A construction ends; its value counts as live from now on. -/
  | constructed (h : Handle)
  /-- A construction ends without a value. -/
  | refused (refusal : Refusal)
  | released (site : Place)
  /-- A destruction ends, or a value is returned; it is not counted any longer. -/
  | returned (given : Option α)
  /-- A destruction ends in a fault. -/
  | broken (fault : Fault)
  deriving DecidableEq

namespace Act

variable {α : Type}

def grants : Act α → List Place
  | .granted site | .appended _ site => [site]
  | _ => []

def releases : Act α → List Place
  | .released site => [site]
  | _ => []

def obtains : Act α → List Nat
  | .obtained block => [block]
  | _ => []

def appends : Act α → List Nat
  | .appended block _ => [block]
  | _ => []

def discards : Act α → List Nat
  | .discarded block => [block]
  | _ => []

/-- Whether a value counts as live from now on. -/
def raises : Act α → Bool
  | .constructed _ => true
  | _ => false

/-- Whether a value is not counted any longer. -/
def lowers : Act α → Bool
  | .returned _ => true
  | _ => false

def breaks : Act α → Bool
  | .broken _ => true
  | _ => false

end Act

/-- What the calls share. -/
structure Traffic (α : Type) where
  pool : Pool α
  env : Environment
  /-- The number of calls that hold the directory from one step to the next. -/
  readers : Nat := 0
  /-- How many blocks for slabs have been obtained so far. -/
  blocks : Nat := 0
  calls : Nat := 0
  /-- The values that have been returned and not been destroyed or taken since. -/
  held : List (Handle × α) := []
  /-- What drops that ended in a fault have left in their slots. -/
  spent : List (Place × α) := []

namespace Traffic

inductive Request (α : Type) where
  | construct (v : α)
  | destroy (h : Handle)
  | take (h : Handle)

variable {α : Type}

/-- Hand a value over to the call that is to end its life. Nobody can use its handle from then
on. -/
def handOver (h : Handle) (stage : Handle → α → Stage α) (s : Traffic α) :
    Option (Stage α × Traffic α) :=
  (s.held.find? (·.1 = h)).map fun r =>
    (stage r.1 r.2, { s with held := s.held.eraseP (·.1 = h) })

/-- Whoever names a handle that has been returned gets a value. -/
theorem exists_find? {s : Traffic α} {r : Handle × α} (hMem : r ∈ s.held) :
    ∃ v, s.held.find? (·.1 = r.1) = some (r.1, v) := by
  cases hFind : s.held.find? (·.1 = r.1) with
  | none => simpa using List.find?_eq_none.mp hFind r hMem
  | some found =>
      obtain ⟨h, v⟩ := found
      obtain rfl : h = r.1 := by simpa using List.find?_some hFind
      exact ⟨v, rfl⟩

/-- A construction starts when it gets hold of the directory. -/
def start (s : Traffic α) : Request α → Option (Stage α × Traffic α)
  | .construct v => some (.scanning v 0, { s with readers := s.readers + 1 })
  | .destroy h => s.handOver h .closing
  | .take h => s.handOver h .moving

/-- A construction lets go of the directory. -/
def leave (s : Traffic α) : Traffic α := { s with readers := s.readers - 1 }

def withPool (s : Traffic α) (pool : Pool α) : Traffic α := { s with pool }

def withEnv (s : Traffic α) (env : Environment) : Traffic α := { s with env }

@[simp] theorem pool_leave (s : Traffic α) : s.leave.pool = s.pool := rfl

@[simp] theorem pool_withPool (s : Traffic α) (pool : Pool α) : (s.withPool pool).pool = pool :=
  rfl

@[simp] theorem pool_withEnv (s : Traffic α) (env : Environment) : (s.withEnv env).pool = s.pool :=
  rfl

@[simp] theorem held_leave (s : Traffic α) : s.leave.held = s.held := rfl

@[simp] theorem held_withPool (s : Traffic α) (pool : Pool α) : (s.withPool pool).held = s.held :=
  rfl

@[simp] theorem held_withEnv (s : Traffic α) (env : Environment) : (s.withEnv env).held = s.held :=
  rfl

/-- What a call does next, what is left of it and of the state. -/
abbrev Outcome (α : Type) := Act α × Option (Stage α) × Traffic α

/-- Look at one slab: take its lowest free slot if there is one. Behind the last slab the limit is
checked, and the directory is let go. -/
def scan (v : α) (k : Nat) (s : Traffic α) : Outcome α :=
  match s.pool.directory.get? k with
  | some slab =>
    match slab.head with
    | none => (.proceeded, some (.scanning v (k + 1)), s)
    | some offset =>
      match s.pool.claim ⟨k, offset⟩ with
      | (.ok site, pool) => (.granted site, some (.claimed v site), (s.withPool pool).leave)
      | (.error refusal, pool) =>
        (.proceeded, some (.refused v refusal), (s.withPool pool).leave)
  | none =>
    if s.pool.atLimit then
      (.proceeded, some (.refused v (.noSlot s.pool.exhausted)),
        (s.withEnv (s.env.raise (.poolExhausted s.pool.codec.maxSlabs))).leave)
    else (.proceeded, some (.growing v), s.leave)

/-- Put a slot back whose value is gone. -/
def giveBack (site : Place) (given : Option α) (s : Traffic α) : Outcome α :=
  if s.pool.isFree site then (.broken (.releasedTwice site.offset), none, s)
  else (.released site, some (.released given), s.withPool (s.pool.reclaim site))

variable [Stored α]

/-- The exclusive section: look at all slabs once more, and make the block a slab if there is still
no free slot and room for a slab. -/
def settle (v : α) (block : Nat) (s : Traffic α) : Outcome α :=
  match s.pool.vacancy? with
  | some found =>
    match s.pool.claim found with
    | (.ok site, pool) => (.granted site, some (.surplus v block (some site)), s.withPool pool)
    | (.error refusal, pool) => (.proceeded, some (.refused v refusal), s.withPool pool)
  | none =>
    if s.pool.atLimit then (.proceeded, some (.surplus v block none), s)
    else
      let index := s.pool.slabCount
      let created :=
        Event.slabCreated index.toUInt32 s.pool.codec.slabCapacity s.pool.slabStorage.size
      match s.pool.directory.push directoryEntry (Slab.fresh s.pool.slabCapacity).unlink s.env with
      | (directory, env) =>
        (.appended block ⟨index, 0⟩, some (.claimed v ⟨index, 0⟩),
          { s with pool := { s.pool with directory }, env := env.raise created })

/-- Give a block back that is not needed. Without a slot the pool is full. -/
def discard (v : α) (block : Nat) (found : Option Place) (s : Traffic α) : Outcome α :=
  let env := s.env.release s.pool.slabStorage
  match found with
  | some site => (.discarded block, some (.claimed v site), s.withEnv env)
  | none => (.discarded block, some (.refused v (.noSlot s.pool.exhausted)),
      s.withEnv (env.raise (.poolExhausted s.pool.codec.maxSlabs)))

/-- Drop a value that has no slot. The construction ends in the fault of the drop if there is
one. -/
def refuse (v : α) (refusal : Refusal) (s : Traffic α) : Outcome α :=
  match Stored.drop refusal.isFault v s.env with
  | (none, _, env) => (.refused refusal, none, s.withEnv env)
  | (some fault, _, env) => (.refused (.fault fault), none, s.withEnv env)

/-- Count a value that is in its slot, and return its handle. -/
def count (v : α) (site : Place) (s : Traffic α) : Outcome α :=
  let handle := s.pool.handle site
  let live := s.pool.live + 1
  (.constructed handle, none,
    { s with
      pool := { s.pool with live }
      env := s.env.raise (.constructed site.slab.toUInt32 site.offset.toUInt32 handle)
      held := (handle, v) :: s.held })

/-- Begin to drop the value behind a handle. -/
def beginDrop (h : Handle) (s : Traffic α) : Outcome α :=
  if s.pool.hasSlab h then
    let site := s.pool.place h
    match (s.pool.slot? site).bind Slot.read? with
    | none => (.proceeded, some (.emptied site none), s)
    | some v => (.proceeded, some (.dropping h v),
        { s with pool := s.pool.update site Slot.retire, env := Stored.beginDrop v s.env })
  else (.broken (s.pool.missingSlab h), none, s)

/-- End the drop. A fault leaves the slot as it is. -/
def endDrop (h : Handle) (v : α) (s : Traffic α) : Outcome α :=
  let site := s.pool.place h
  match Stored.endDrop false v s.env with
  | (some fault, rest, env) => (.broken fault, none,
      { s with
        pool := s.pool.update site (Slot.write rest)
        env
        spent := (site, rest) :: s.spent })
  | (none, _, env) => (.proceeded, some (.emptied site none), s.withEnv env)

/-- Move the value behind a handle out of its slot. -/
def moveOut (h : Handle) (s : Traffic α) : Outcome α :=
  if s.pool.hasSlab h then
    let site := s.pool.place h
    match s.pool.value? site with
    | none => (.proceeded, none, s)
    | some v =>
      (.proceeded, some (.emptied site (some v)), s.withPool (s.pool.update site Slot.retire))
  else (.broken (s.pool.missingSlab h), none, s)

/-- The next step of a call. Only the exclusive section has to wait, until nobody holds the
directory. -/
def advance (s : Traffic α) : Stage α → Option (Outcome α)
  | .scanning v k => some (s.scan v k)
  | .growing v => some (.obtained s.blocks, some (.grown v s.blocks),
      { s with env := s.env.allocate s.pool.slabStorage, blocks := s.blocks + 1 })
  | .grown v block => if s.readers = 0 then some (s.settle v block) else none
  | .surplus v block found => some (s.discard v block found)
  | .refused v refusal => some (s.refuse v refusal)
  | .claimed v site => some (.proceeded, some (.stored v site),
      s.withPool (s.pool.update site (Slot.publish v)))
  | .stored v site => some (s.count v site)
  | .closing h _ => some (s.beginDrop h)
  | .dropping h v => some (s.endDrop h v)
  | .moving h _ => some (s.moveOut h)
  | .emptied site given => some (s.giveBack site given)
  | .released given =>
    let live := s.pool.live - 1
    some (.returned given, none, s.withPool { s.pool with live })

def rules : Rules (Traffic α) (Call α) (Request α) (Act α) where
  start request s := (s.start request).map fun (stage, s) =>
    (⟨s.calls, stage⟩, { s with calls := s.calls + 1 })
  advance t s := (s.advance t.stage).map fun (act, rest, s) =>
    (act, rest.map (⟨t.number, ·⟩), s)

/-- A call that starts gets the next number. -/
theorem start_rules {s s' : Traffic α} {request : Request α} {t : Call α}
    (hStart : rules.start request s = some (t, s')) : ∃ stage s₁,
      s.start request = some (stage, s₁) ∧ t = ⟨s₁.calls, stage⟩ ∧
        s' = { s₁ with calls := s₁.calls + 1 } := by
  obtain ⟨⟨stage, s₁⟩, hCall, hEq⟩ := Option.map_eq_some_iff.mp hStart
  cases hEq
  exact ⟨stage, s₁, hCall, rfl, rfl⟩

/-- A call that takes a step keeps its number. -/
theorem advance_rules {s s' : Traffic α} {t : Call α} {act : Act α} {rest : Option (Call α)}
    (hAdvance : rules.advance t s = some (act, rest, s')) : ∃ stage,
      s.advance t.stage = some (act, stage, s') ∧ rest.toList = t.left stage := by
  obtain ⟨⟨act, stage, s₁⟩, hCall, hEq⟩ := Option.map_eq_some_iff.mp hAdvance
  cases hEq
  exact ⟨stage, hCall, rfl⟩

/-- The calls at a new pool. -/
abbrev opening (p : Pool α) (env : Environment) : Crowd (Traffic α) (Call α) :=
  ⟨{ pool := p, env }, []⟩

end Traffic
end TaskMemory.Pool

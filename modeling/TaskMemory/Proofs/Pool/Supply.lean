import TaskMemory.Proofs.Memory.Growth
import TaskMemory.Proofs.Pool.Footprint
import TaskMemory.Proofs.Pool.Ledgers

/-!
What calls side by side at a pool do to the memory. A block for a slab is obtained and given back
in a step of its own, and a slab that is appended makes room for itself in the directory; no other
act asks for anything. So the environment says how often each of this was done, whatever the order.
-/
namespace TaskMemory.Pool

variable {α : Type}

/-- What an act asks of the memory, where the blocks of slabs have this layout. -/
def Act.requests (storage : Layout) : Act α → List (Effect Unit)
  | .obtained _ => [.obtain storage]
  | .appended _ site => Table.growth directoryEntry site.slab (Table.roomFor site.slab)
  | .discarded _ => [.giveBack storage]
  | _ => []

/-- What the growth of a pool asks for is what the growth of its directory does. -/
theorem requests_growth (p : Pool α) : Effect.requests (p.growth : List (Effect α)) =
    Table.growth directoryEntry p.slabCount p.directory.capacity := by
  rw [growth, Table.growth, directoryBlock, slabCount]
  by_cases hFull : p.directory.size = p.directory.capacity
  · rw [if_pos hFull, if_pos hFull]
    split <;> rfl
  · rw [if_neg hFull, if_neg hFull]
    rfl

/-- A directory that is asked for room asks for one block if it is full. -/
theorem countP_asks_growth (n : Nat) :
    (Table.growth directoryEntry n (Table.roomFor n)).countP Effect.asks =
      if n = Table.roomFor n then 1 else 0 := by
  have hNext : Table.nextCapacity (Table.roomFor n) ≠ 0 := by
    rw [Table.nextCapacity]
    split <;> omega
  have hAsks : Effect.asks (α := Unit) (.obtain
      (directoryEntry.array (Table.nextCapacity (Table.roomFor n)))) = true :=
    decide_eq_true (Nat.mul_ne_zero (by decide) hNext)
  rw [Table.growth]
  split
  · rw [List.countP_cons_of_pos hAsks]
    split <;> rfl
  · rfl

variable [Stored α]

namespace Shift

variable {s : Traffic α} {t : Stage α} {outcome : Traffic.Outcome α}

theorem storage_eq (shift : Shift s t outcome) :
    outcome.2.2.pool.slabStorage = s.pool.slabStorage := by
  rw [slabStorage, slabStorage, slabCapacity, slabCapacity, shift.codec_eq]

/-- A step may obtain a block, give it back or make a slab of it. Every other step leaves all blocks
where they are. -/
theorem blocks_cases (shift : Shift s t outcome) :
    (∃ block, outcome.1 = .appended block ⟨s.pool.slabCount, 0⟩ ∧
      outcome.2.2.pool = s.pool.append ∧
      t.blocks.length = (outcome.2.1.elim [] Stage.blocks).length + 1) ∨
    outcome.2.2.pool.slabCount = s.pool.slabCount ∧
    outcome.2.2.pool.directory.capacity = s.pool.directory.capacity ∧
      ((∃ block, outcome.1 = .obtained block ∧
        (outcome.2.1.elim [] Stage.blocks).length = t.blocks.length + 1) ∨
      (∃ block, outcome.1 = .discarded block ∧
        t.blocks.length = (outcome.2.1.elim [] Stage.blocks).length + 1) ∨
      (∀ storage, outcome.1.requests storage = []) ∧ outcome.1.obtains = [] ∧
        (outcome.2.1.elim [] Stage.blocks).length = t.blocks.length) := by
  cases shift with
  | append => exact .inl ⟨_, rfl, rfl, rfl⟩
  | obtain => exact .inr ⟨rfl, rfl, .inl ⟨_, rfl, rfl⟩⟩
  | discard | surrender => exact .inr ⟨rfl, rfl, .inr (.inl ⟨_, rfl, rfl⟩)⟩
  | grant | overtake => exact .inr ⟨slabCount_mapSlab .., rfl, .inr (.inr ⟨fun _ => rfl, rfl, rfl⟩)⟩
  | store | close | spoil | move =>
      exact .inr ⟨slabCount_update .., rfl, .inr (.inr ⟨fun _ => rfl, rfl, rfl⟩)⟩
  | release => exact .inr ⟨slabCount_reclaim .., rfl, .inr (.inr ⟨fun _ => rfl, rfl, rfl⟩)⟩
  | _ => exact .inr ⟨rfl, rfl, .inr (.inr ⟨fun _ => rfl, rfl, rfl⟩)⟩

/-- A step leaves the directory with the room of a table that was filled slab by slab. -/
theorem directory_eq (shift : Shift s t outcome)
    (hDirectory : s.pool.directory.capacity = Table.roomFor s.pool.slabCount) :
    outcome.2.2.pool.directory.capacity = Table.roomFor outcome.2.2.pool.slabCount := by
  obtain ⟨_, -, hPool, -⟩ | ⟨hCount, hCapacity, -⟩ := shift.blocks_cases
  · rw [hPool, slabCount_append, Table.roomFor_succ, ← hDirectory]
    rfl
  · rw [hCapacity, hCount, hDirectory]

/-- What a step does to the environment, and what it asks of the memory for that. -/
theorem exists_work (shift : Shift s t outcome)
    (hDirectory : s.pool.directory.capacity = Table.roomFor s.pool.slabCount) :
    ∃ es : List (Effect α), outcome.2.2.env = Effect.replay es s.env ∧
      Effect.requests es = outcome.1.requests s.pool.slabStorage := by
  cases shift with
  | obtain => exact ⟨[.obtain s.pool.slabStorage], rfl, rfl⟩
  | append =>
      have hRequests := requests_growth s.pool
      rw [hDirectory] at hRequests
      refine ⟨s.pool.growth ++ [.raise (.slabCreated s.pool.slabCount.toUInt32
        s.pool.codec.slabCapacity s.pool.slabStorage.size)], ?_, ?_⟩
      · rw [Effect.replay_append]
        exact congrArg (Environment.raise · _) (congrArg Prod.snd (push_eq s.pool s.env))
      · rw [Effect.requests_append, hRequests]
        exact List.append_nil _
  | discard => exact ⟨[.giveBack s.pool.slabStorage], rfl, rfl⟩
  | surrender => exact ⟨[.giveBack s.pool.slabStorage, .raise _], rfl, rfl⟩
  | exhaust | count => exact ⟨[.raise _], rfl, rfl⟩
  | @refuse v refusal => exact ⟨Effect.drop refusal.isFault v, rfl, rfl⟩
  | @close h v => exact ⟨[.beginDrop v], rfl, rfl⟩
  | @drop h v => exact ⟨[.endDrop false v], rfl, rfl⟩
  | @spoil h v => exact ⟨[.endDrop false v], rfl, rfl⟩
  | _ => exact ⟨[], rfl, rfl⟩

/-- The block that a call obtains is out until the pool has it as a slab or the call gives it
back. -/
theorem account_eq (shift : Shift s t outcome)
    (hDirectory : s.pool.directory.capacity = Table.roomFor s.pool.slabCount) (n : Nat) :
    Effect.account (outcome.1.requests s.pool.slabStorage)
        (s.pool.blocks + Multiset.replicate (n + t.blocks.length) s.pool.slabStorage) =
      some (outcome.2.2.pool.blocks + Multiset.replicate
        (n + (outcome.2.1.elim [] Stage.blocks).length) s.pool.slabStorage) := by
  generalize hLeft : (outcome.2.1.elim [] Stage.blocks).length = left
  have cases := shift.blocks_cases
  rw [hLeft] at cases
  obtain ⟨_, hAct, hPool, hHands⟩ | ⟨hCount, hCapacity, hKind⟩ := cases
  · have hAppend : Effect.account s.pool.growth (s.pool.slabStorage ::ₘ s.pool.blocks) =
        some s.pool.append.blocks := account_append s.pool
    have hAdd := Effect.account_add hAppend (Multiset.replicate (n + left) s.pool.slabStorage)
    rw [← Effect.account_requests, requests_growth, hDirectory, Multiset.cons_add,
      ← Multiset.add_cons, ← Multiset.replicate_succ] at hAdd
    rw [hAct, hPool, hHands]
    exact hAdd
  · rw [blocks_congr hCount shift.storage_eq hCapacity]
    obtain ⟨_, hAct, hHands⟩ | ⟨_, hAct, hHands⟩ | ⟨hNone, -, hHands⟩ := hKind
    · rw [hAct, hHands, ← Nat.add_assoc, Multiset.replicate_succ, Multiset.add_cons]
      rfl
    · rw [hAct, hHands, ← Nat.add_assoc, Multiset.replicate_succ, Multiset.add_cons]
      simp [Act.requests, Effect.account, Effect.enter]
    · rw [hNone, hHands]
      rfl

/-- A step asks for the block that it obtains, and for one for the directory if that is full. -/
theorem asks_eq (shift : Shift s t outcome) (hSize : s.pool.slabStorage.size ≠ 0) :
    (outcome.1.requests s.pool.slabStorage).countP Effect.asks + Table.blockCount s.pool.slabCount =
      outcome.1.obtains.length + Table.blockCount outcome.2.2.pool.slabCount := by
  have hAsks : Effect.asks (α := Unit) (.obtain s.pool.slabStorage) = true := decide_eq_true hSize
  obtain ⟨_, hAct, hPool, -⟩ | ⟨hCount, -, hKind⟩ := shift.blocks_cases
  · rw [hAct, hPool, slabCount_append, Table.blockCount_succ, ← countP_asks_growth]
    exact (Nat.add_comm ..).trans (Nat.zero_add _).symm
  · rw [hCount, Nat.add_right_cancel_iff]
    obtain ⟨_, hAct, -⟩ | ⟨_, hAct, -⟩ | ⟨hNone, hObtains, -⟩ := hKind
    · rw [hAct]
      exact List.countP_cons_of_pos hAsks
    · rw [hAct]
      rfl
    · rw [hNone, hObtains]
      rfl

end Shift

namespace Traffic

/-- How many blocks calls have in their hands. -/
def inHands (calls : List (Call α)) : Nat := (calls.flatMap (·.stage.blocks)).length

omit [Stored α] in
/-- The blocks in the hands of some calls, and those in the hands of the others. -/
theorem inHands_split (before rest after : List (Call α)) : inHands (before ++ rest ++ after) =
    inHands (before ++ after) + (rest.flatMap (·.stage.blocks)).length := by
  simp only [inHands, List.flatMap_append, List.length_append]
  omega

/-- The environment is what this work has made of it since a new pool. The work asks for memory
where the acts say so, and for nothing else; the drops of values are in it as they come. What is out
after it are the blocks of the pool and those that calls have in their hands. -/
structure Supplied (p : Pool α) (env : Environment) (log : List (Act α)) (s : Traffic α)
    (calls : List (Call α)) (work : List (Effect α)) : Prop where
  directory : s.pool.directory.capacity = Table.roomFor s.pool.slabCount
  env_eq : s.env = Effect.replay work env
  requests_eq : Effect.requests work = log.flatMap (Act.requests p.slabStorage)
  account_eq : Effect.account work 0 =
    some (s.pool.blocks + Multiset.replicate (inHands calls) p.slabStorage)
  asks_eq : (Effect.requests work).countP Effect.asks =
    (log.flatMap Act.obtains).length + Table.blockCount s.pool.slabCount

/-- What the account of the memory says about calls at a pool that alone uses it. -/
structure Billed (log : List (Act α)) (s : Traffic α) (calls : List (Call α)) (l : Ledger) :
    Prop where
  allocations_eq : l.allocations =
    (log.flatMap Act.obtains).length + Table.blockCount s.pool.slabCount
  /-- The blocks of slabs that were not needed, and those that the directory has left. -/
  deallocations_eq : l.deallocations =
    (log.flatMap Act.discards).length + (Table.blockCount s.pool.slabCount - 1)
  liveBytes_eq : l.liveBytes = (s.pool.slabCount + inHands calls) * s.pool.slabStorage.size +
    24 * Table.roomFor s.pool.slabCount

variable {p : Pool α} {env : Environment} {log : List (Act α)} {s : Traffic α}
  {calls before after : List (Call α)} {work : List (Effect α)} {t : Call α} {outcome : Outcome α}

/-- Nothing has been asked of the memory at a new pool. -/
theorem supplied_opening {o : PoolOptions} (hCreate : Pool.create o = .ok p) (env : Environment) :
    Supplied p env [] ({ pool := p, env } : Traffic α) [] [] := by
  obtain ⟨codec, -, rfl⟩ := create_eq hCreate
  exact ⟨rfl, rfl, rfl, rfl, rfl⟩

/-- The start of a call does nothing to the environment. -/
theorem Supplied.start {request : Request α} {stage : Stage α} {s' : Traffic α}
    (supplied : Supplied p env log s calls work) (hStart : s.start request = some (stage, s')) :
    Supplied p env log { s' with calls := s'.calls + 1 } (calls ++ [⟨s'.calls, stage⟩]) work := by
  obtain ⟨hPool, -, -, hNone, -⟩ := start_keeps hStart
  have hEnv : s'.env = s.env := by
    obtain ⟨v, -, rfl⟩ | ⟨h, r, -, -, rfl⟩ := start_cases hStart <;> rfl
  have hHands : inHands (calls ++ [⟨s'.calls, stage⟩]) = inHands calls := by
    rw [inHands, List.flatMap_append, List.flatMap_singleton, hNone, List.append_nil, inHands]
  constructor
  case directory => exact hPool ▸ supplied.directory
  case env_eq => exact hEnv.trans supplied.env_eq
  case requests_eq => exact supplied.requests_eq
  case account_eq => exact hHands ▸ hPool ▸ supplied.account_eq
  case asks_eq => exact hPool ▸ supplied.asks_eq

/-- Every step asks for what its act says, and nothing that is asked for is lost. -/
theorem Supplied.advance (supplied : Supplied p env log s (before ++ t :: after) work)
    (tracks : Tracks p log s (before ++ t :: after)) (shift : Shift s t.stage outcome) :
    ∃ es, Supplied p env (log ++ [outcome.1]) outcome.2.2 (before ++ t.left outcome.2.1 ++ after)
      (work ++ es) := by
  obtain ⟨_, _, packs⟩ := tracks.fits.packs
  have hStorage : s.pool.slabStorage = p.slabStorage := by
    rw [slabStorage, slabStorage, slabCapacity, slabCapacity, tracks.codec]
  obtain ⟨es, hEnv, hRequests⟩ := shift.exists_work supplied.directory
  have hAccount := shift.account_eq supplied.directory (inHands (before ++ after))
  have hAsks := shift.asks_eq (slabStorage_size_ne_zero packs)
  have hBefore := inHands_split before [t] after
  have hAfter := inHands_split before (t.left outcome.2.1) after
  rw [List.append_assoc, List.singleton_append, List.flatMap_singleton] at hBefore
  rw [Call.flatMap_left] at hAfter
  rw [hStorage] at hRequests hAccount hAsks
  refine ⟨es, ?_⟩
  constructor
  case directory => exact shift.directory_eq supplied.directory
  case env_eq => rw [hEnv, supplied.env_eq, Effect.replay_append]
  case requests_eq =>
    rw [Effect.requests_append, supplied.requests_eq, hRequests, List.flatMap_append,
      List.flatMap_singleton]
  case account_eq =>
    rw [Effect.account_append_of_eq_some supplied.account_eq, ← Effect.account_requests, hRequests,
      hBefore, hAfter]
    exact hAccount
  case asks_eq =>
    have hOld := supplied.asks_eq
    rw [Effect.requests_append, List.countP_append, hRequests, List.flatMap_append,
      List.flatMap_singleton, List.length_append]
    omega

omit [Stored α] in
/-- What is asked for does not depend on what else is done. -/
theorem countP_asks_requests (es : List (Effect α)) :
    (Effect.requests es).countP Effect.asks = es.countP Effect.asks := by
  rw [Effect.requests, List.countP_filterMap]
  exact List.countP_congr fun e _ => by cases e <;> rfl

/-- A counting layer has an entry for each block that was obtained, and for each one that was given
back. -/
theorem Supplied.billed (supplied : Supplied p env log s calls work)
    (tracks : Tracks p log s calls) (keeps : Effect.KeepsMemory α) {inner : Resource}
    (hEnv : env.resource = .counting {} inner) (granted : Effect.Granted work env) :
    ∃ l inner', s.env.resource = .counting l inner' ∧ Billed log s calls l := by
  obtain ⟨_, _, packs⟩ := tracks.fits.packs
  have hSize : s.pool.slabStorage.size ≠ 0 := slabStorage_size_ne_zero packs
  have hStorage : p.slabStorage = s.pool.slabStorage := by
    rw [slabStorage, slabStorage, slabCapacity, slabCapacity, tracks.codec]
  have hAccount := supplied.account_eq
  rw [hStorage] at hAccount
  have tallies : Effect.Tallies {} (work.foldl Effect.charge {}) _ :=
    Effect.tallies_foldl ⟨rfl, rfl⟩ hAccount
  obtain ⟨inner', hResource⟩ := Effect.counting_replay keeps hEnv granted
  have hAllocations : (work.foldl Effect.charge {}).allocations =
      (log.flatMap Act.obtains).length + Table.blockCount s.pool.slabCount := by
    rw [Effect.allocations_foldl, ← countP_asks_requests, supplied.asks_eq]
    exact Nat.zero_add _
  refine ⟨_, inner', supplied.env_eq ▸ hResource, hAllocations, ?_, ?_⟩
  · have hHands : ((Multiset.replicate (inHands calls) s.pool.slabStorage).countP fun block =>
        block.size ≠ 0) = inHands calls :=
      (Multiset.countP_eq_card.mpr fun block hBlock =>
        Multiset.eq_of_mem_replicate hBlock ▸ hSize).trans (Multiset.card_replicate ..)
    have hOut := tallies.blocks
    rw [Multiset.countP_add, countP_blocks hSize supplied.directory, hHands] at hOut
    have hObtains := (tracks.obtained ▸ tracks.blocks).length_eq
    have hSlabs := tracks.slabs
    have hCount : Table.blockCount s.pool.slabCount =
        (Table.blockCount s.pool.slabCount - 1) + if s.pool.slabCount = 0 then 0 else 1 := by
      rw [Table.blockCount]
      split <;> omega
    simp only [List.length_append] at hObtains
    change _ + 0 = _ + 0 + _ at hOut
    change _ = _ + _ + inHands calls at hObtains
    omega
  · have hBytes := tallies.bytes
    rw [Multiset.map_add, Multiset.sum_add, sum_blocks supplied.directory, Multiset.map_replicate,
      Multiset.sum_replicate, smul_eq_mul] at hBytes
    rw [hBytes, Nat.add_mul]
    change 0 + _ = _
    omega

end Traffic
end TaskMemory.Pool

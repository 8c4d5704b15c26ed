import TaskMemory.Proofs.Handle.RoundTrip
import TaskMemory.Proofs.Memory.Doubling
import TaskMemory.Proofs.Pool.Disposal

/-!
What a pool has in memory, and what it has asked for on the way. At any time it has the blocks of
its slabs and one block for the directory, whose size follows from the number of slabs. It has asked
for each of them once, for a new directory block whenever the directory has grown, and for the
blocks of new slabs that turned out not to be needed.
-/
namespace TaskMemory

namespace Effect

variable {α : Type}

/-- Whether a block is asked for; one of size zero does not reach the resource. -/
def asks : Effect α → Bool
  | obtain block => block.size ≠ 0
  | _ => false

/-- Every block that is asked for counts once. -/
theorem allocations_foldl (es : List (Effect α)) (l : Ledger) :
    (es.foldl charge l).allocations = l.allocations + es.countP asks := by
  induction es generalizing l with
  | nil => rfl
  | cons e es ih =>
      have hFirst : (charge l e).allocations = l.allocations + [e].countP asks := by
        cases e with
        | obtain block => by_cases h : block.size = 0 <;> simp [charge, asks, h, Ledger.grant]
        | giveBack block => by_cases h : block.size = 0 <;> simp [charge, asks, h, Ledger.giveBack]
        | raise | beginDrop | endDrop => rfl
      rw [List.foldl_cons, ih, hFirst, Nat.add_assoc, ← List.countP_append, List.singleton_append]

end Effect

namespace Pool

variable {α : Type} [Stored α]

/-- A step that was taken, with its effects. -/
structure Stride (α : Type) [Stored α] where
  before : Moment α
  effects : List (Effect α)
  after : Moment α
  step : Step before effects after

/-- The directory moves to another block. -/
def Stride.grows (s : Stride α) : Bool :=
  s.after.pool.directory.capacity ≠ s.before.pool.directory.capacity

/-- A block is obtained, for a new slab, and given back at once. -/
def Stride.discards (s : Stride α) : Bool :=
  match s.effects with
  | [.obtain new, .giveBack old] => new = old
  | _ => false

/-- These steps, one after the other, lead from a moment to another one. -/
def Leads : Moment α → List (Stride α) → Moment α → Prop
  | m, [], m' => m' = m
  | m, s :: rest, m' => s.before = m ∧ Leads s.after rest m'

def effects (course : List (Stride α)) : List (Effect α) := course.flatMap Stride.effects

variable {m m' : Moment α} {es : List (Effect α)} {course : List (Stride α)} {p : Pool α}

theorem Leads.concat {s : Stride α} (leads : Leads m course s.before) :
    Leads m (course ++ [s]) s.after := by
  induction course generalizing m with
  | nil => exact ⟨leads, rfl⟩
  | cons first rest ih => exact ⟨leads.1, ih leads.2⟩

/-- A course is made of steps. -/
theorem Leads.steps (leads : Leads m course m') : Steps m (effects course) m' := by
  induction course generalizing m with
  | nil => exact leads ▸ .zero m
  | cons s rest ih =>
      obtain ⟨rfl, hRest⟩ := leads
      exact s.step.steps.trans (ih hRest)

/-- All steps are strides of a course. -/
theorem Steps.exists_course (steps : Steps m es m') :
    ∃ course, Leads m course m' ∧ effects course = es := by
  induction steps with
  | zero => exact ⟨[], rfl, rfl⟩
  | @succ m' m'' es es' prior last ih =>
      obtain ⟨course, leads, rfl⟩ := ih
      refine ⟨course ++ [⟨m', es', m'', last⟩], leads.concat, ?_⟩
      rw [effects, List.flatMap_append, List.flatMap_singleton]
      rfl

/-- A step discards the block of a new slab, or adds a slab, or leaves the memory alone. -/
theorem Step.memory_cases (step : Step m es m') :
    (es = [.obtain m.pool.slabStorage, .giveBack m.pool.slabStorage] ∧ m' = m) ∨
    (es = .obtain m.pool.slabStorage :: m.pool.growth ∧ m'.pool = m.pool.append) ∨
    (m'.pool.slabCount = m.pool.slabCount ∧
      m'.pool.directory.capacity = m.pool.directory.capacity ∧
      ∀ e ∈ es, (∀ block, e ≠ .obtain block) ∧ ∀ block, e ≠ .giveBack block) := by
  cases step with
  | probe => exact .inl ⟨rfl, rfl⟩
  | append => exact .inr (.inl ⟨rfl, rfl⟩)
  | announce | reject => exact .inr (.inr ⟨rfl, rfl, by simp [Effect.drop]⟩)
  | claim => exact .inr (.inr ⟨slabCount_mapSlab .., rfl, by simp⟩)
  | reclaim => exact .inr (.inr ⟨slabCount_reclaim .., rfl, by simp⟩)
  | take =>
      exact .inr (.inr ⟨(slabCount_update ..).trans (slabCount_reclaim ..), rfl, by simp⟩)
  | publish | edit | close | spoil => exact .inr (.inr ⟨slabCount_update .., rfl, by simp⟩)
  | settle => exact .inr (.inr ⟨slabCount_reclaim .., rfl, by simp⟩)

/-- The directory of a pool has room as a table that was filled slab by slab. -/
theorem Steps.directory_eq (steps : Steps m es m')
    (h : m.pool.directory.capacity = Table.roomFor m.pool.slabCount) :
    m'.pool.directory.capacity = Table.roomFor m'.pool.slabCount := by
  induction steps with
  | zero => exact h
  | @succ m' m'' es es' prior last ih =>
      obtain ⟨-, rfl⟩ | ⟨-, hAppend⟩ | ⟨hCount, hCapacity, -⟩ := last.memory_cases
      · exact ih
      · rw [hAppend, slabCount_append, Table.roomFor_succ, ← ih]
        rfl
      · rw [hCapacity, hCount, ih]

omit [Stored α] in
/-- Growth asks for one block if the directory has to make room, and for none otherwise. -/
theorem countP_growth (p : Pool α) : (p.growth : List (Effect α)).countP Effect.asks =
    if p.append.directory.capacity = p.directory.capacity then 0 else 1 := by
  have hBack : (p.directoryBlock.map .giveBack : List (Effect α)).countP Effect.asks = 0 := by
    rw [directoryBlock]
    split <;> rfl
  by_cases hFull : p.directory.size = p.directory.capacity
  · have hNext : Table.nextCapacity p.directory.capacity ≠ p.directory.capacity ∧
        Table.nextCapacity p.directory.capacity ≠ 0 := by
      rw [Table.nextCapacity]
      split <;> omega
    have hAfter : p.append.directory.capacity = Table.nextCapacity p.directory.capacity :=
      if_pos hFull
    have hAsks : Effect.asks (α := α) (.obtain
        (directoryEntry.array (Table.nextCapacity p.directory.capacity))) = true :=
      decide_eq_true (Nat.mul_ne_zero (by decide) hNext.2)
    rw [growth, if_pos hFull, List.countP_cons_of_pos hAsks, hBack, hAfter, if_neg hNext.1]
  · have hAfter : p.append.directory.capacity = p.directory.capacity := if_neg hFull
    rw [growth, if_neg hFull, if_pos hAfter]
    rfl

/-- A step asks for the blocks of a new slab and of a new directory, or for one that it discards. -/
theorem Stride.countP_asks (s : Stride α) (hSize : s.before.pool.slabStorage.size ≠ 0) :
    s.effects.countP Effect.asks + s.before.pool.slabCount = s.after.pool.slabCount +
      (if s.grows then 1 else 0) + if s.discards then 1 else 0 := by
  have hAsks : Effect.asks (α := α) (.obtain s.before.pool.slabStorage) = true :=
    decide_eq_true hSize
  obtain ⟨hEffects, hAfter⟩ | ⟨hEffects, hAfter⟩ | ⟨hCount, hCapacity, hNone⟩ :=
    s.step.memory_cases
  · have hGrows : s.grows = false := by simp [grows, hAfter]
    have hDiscards : s.discards = true := by simp [discards, hEffects]
    have hOne : s.effects.countP Effect.asks = 1 := by
      rw [hEffects, List.countP_cons_of_pos hAsks]
      rfl
    rw [hOne, hAfter, hGrows, hDiscards]
    exact Nat.add_comm ..
  · have hDiscards : s.discards = false := by
      by_cases hFull : s.before.pool.directory.size = s.before.pool.directory.capacity <;>
        simp [discards, hEffects, growth, hFull]
    have hGrows : (if s.grows then 1 else 0) =
        (s.before.pool.growth : List (Effect α)).countP Effect.asks := by
      simp [grows, hAfter, countP_growth]
    rw [hEffects, List.countP_cons_of_pos hAsks, hGrows, hDiscards, hAfter, slabCount_append,
      if_neg Bool.false_ne_true]
    omega
  · have hGrows : s.grows = false := by simp [grows, hCapacity]
    have hDiscards : s.discards = false := by
      rw [discards]
      split
      · next new old hEffects =>
          exact absurd rfl ((hNone (.obtain new) (hEffects ▸ List.mem_cons_self)).1 new)
      · rfl
    have hZero : s.effects.countP Effect.asks = 0 := by
      rw [List.countP_eq_zero]
      intro e he
      cases e with
      | obtain block => exact absurd rfl ((hNone _ he).1 block)
      | giveBack | raise | beginDrop | endDrop => exact Bool.false_ne_true
    rw [hZero, hCount, hGrows, hDiscards]
    exact Nat.zero_add _

/-- Along a course the pool asks for one block a slab, one each time the directory grows, and those
that it discards. -/
theorem Leads.countP_asks (leads : Leads m course m') (hSize : m.pool.slabStorage.size ≠ 0) :
    (effects course).countP Effect.asks + m.pool.slabCount = m'.pool.slabCount +
      course.countP Stride.grows + course.countP Stride.discards := by
  induction course generalizing m with
  | nil =>
      obtain rfl : m' = m := leads
      exact Nat.zero_add _
  | cons s rest ih =>
      obtain ⟨rfl, hRest⟩ := leads
      have hStorage : s.after.pool.slabStorage = s.before.pool.slabStorage := by
        rw [slabStorage, slabCapacity, s.step.codec_eq]
        rfl
      have hFirst := s.countP_asks hSize
      have hLater := ih hRest (hStorage ▸ hSize)
      rw [effects, List.flatMap_cons, List.countP_append, List.countP_cons, List.countP_cons]
      change (effects rest).countP _ + _ = _ at hLater
      change _ + (effects rest).countP _ + _ = _
      omega

omit [Stored α] in
/-- The directory has a block as soon as there is a slab. -/
theorem directoryBlock_eq (h : p.directory.capacity = Table.roomFor p.slabCount) :
    p.directoryBlock =
      if p.slabCount = 0 then [] else [directoryEntry.array (Table.roomFor p.slabCount)] := by
  simp only [directoryBlock, h, Table.roomFor_eq_zero_iff]

/-- The bytes that a pool has are those of its slabs and of its directory. -/
theorem sum_blocks (h : p.directory.capacity = Table.roomFor p.slabCount) :
    (p.blocks.map Layout.size).sum =
      p.slabCount * p.slabStorage.size + 24 * Table.roomFor p.slabCount := by
  rw [blocks, directoryBlock_eq h, Multiset.map_add, Multiset.sum_add, Multiset.map_replicate,
    Multiset.sum_replicate, smul_eq_mul]
  split
  · next hNone =>
      rw [hNone]
      rfl
  · rfl

/-- The blocks of a pool are its slabs and, as soon as there is a slab, the directory. -/
theorem countP_blocks (hSize : p.slabStorage.size ≠ 0)
    (h : p.directory.capacity = Table.roomFor p.slabCount) :
    (p.blocks.countP fun block => block.size ≠ 0) =
      p.slabCount + if p.slabCount = 0 then 0 else 1 := by
  have hSlabs : ((Multiset.replicate p.slabCount p.slabStorage).countP fun block =>
      block.size ≠ 0) = p.slabCount :=
    (Multiset.countP_eq_card.mpr fun block hBlock =>
      Multiset.eq_of_mem_replicate hBlock ▸ hSize).trans (Multiset.card_replicate ..)
  rw [blocks, directoryBlock_eq h, Multiset.countP_add, hSlabs]
  split
  · rfl
  · next hSome =>
      have hRoom : (directoryEntry.array (Table.roomFor p.slabCount)).size ≠ 0 :=
        Nat.mul_ne_zero (by decide) (mt Table.roomFor_eq_zero_iff.mp hSome)
      exact congrArg (p.slabCount + ·) (Multiset.countP_cons_of_pos
        (p := fun block : Layout => block.size ≠ 0) 0 hRoom)

omit [Stored α] in
theorem slabCapacity_create {o : PoolOptions} (h : Pool.create o = .ok p) :
    p.slabCapacity = o.slabCapacity.toNat := by
  obtain ⟨codec, hMake, rfl⟩ := create_eq h
  exact congrArg UInt32.toNat (Codec.slabCapacity_eq hMake)

/-- A course of steps, from the beginning on, that leads to where a pool has been seen. -/
structure Course (p : Pool α) (env : Environment) (claims : List Place)
    (course : List (Stride α)) (view : Host α (Book α)) : Prop where
  leads : Leads (Moment.initial p) course ⟨view.pool, view.state, claims⟩
  env : view.env = Effect.replay (effects course) env

/-- What the account of the memory says about a pool that alone uses it. -/
structure Footprint (slabCapacity : Nat) (course : List (Stride α)) (p : Pool α) (l : Ledger) :
    Prop where
  bytes : l.liveBytes =
    p.slabCount * slabCapacity * (Stored.slot α).size + 24 * Table.roomFor p.slabCount
  blocks : l.allocations = l.deallocations + p.slabCount + if p.slabCount = 0 then 0 else 1
  requests : l.allocations =
    p.slabCount + course.countP Stride.grows + course.countP Stride.discards

/-- Whatever runs, in whatever nesting, over a counting layer that nobody else uses: at every point
at which user code can look, the account is that of the slabs and the directory, and it has grown by
a block for each slab, for each time the directory has grown, and for each slab that was
discarded. -/
theorem Program.keeps_footprint {o : PoolOptions} {p : Pool α} (h : Pool.create o = .ok p)
    {env : Environment} {inner : Resource} (hEnv : env.resource = .counting {} inner)
    (keeps : Effect.KeepsMemory α) (program : Program α) :
    ∀ view ∈ (program.run (Usage.start p env)).state.views,
      (∃ claims course, Course p env claims course view) ∧
      ∀ claims course, Course p env claims course view → Effect.Granted (effects course) env →
        ∃ l inner', view.env.resource = .counting l inner' ∧
          Footprint o.slabCapacity.toNat course view.pool l := by
  intro view hView
  constructor
  · obtain ⟨claims, es, steps, hReplay⟩ := (program.follows_initial h env).views view hView
    obtain ⟨course, leads, rfl⟩ := steps.exists_course
    exact ⟨claims, course, leads, hReplay⟩
  · rintro claims course ⟨leads, hReplay⟩ granted
    have fits₀ := Moment.fits_initial (α := α) h
    have steps := leads.steps
    obtain ⟨_, _, packs⟩ := (steps.fits fits₀).packs
    obtain ⟨_, _, packs₀⟩ := fits₀.packs
    have hSize : view.pool.slabStorage.size ≠ 0 := slabStorage_size_ne_zero packs
    have hCapacity : view.pool.slabCapacity = o.slabCapacity.toNat := by
      have hCodec : view.pool.codec = p.codec := steps.codec_eq
      rw [slabCapacity, hCodec]
      exact slabCapacity_create h
    have hCount : p.slabCount = 0 := by
      obtain ⟨codec, -, rfl⟩ := create_eq h
      rfl
    have hDirectory : view.pool.directory.capacity = Table.roomFor view.pool.slabCount := by
      refine steps.directory_eq ?_
      obtain ⟨codec, -, rfl⟩ := create_eq h
      rfl
    have hAccount := steps.account_eq
    rw [blocks_initial h] at hAccount
    have hNone : Effect.Tallies {} {} 0 := ⟨rfl, rfl⟩
    have tallies := Effect.tallies_foldl hNone hAccount
    obtain ⟨inner', hResource⟩ := Effect.counting_replay keeps hEnv granted
    refine ⟨_, inner', hReplay ▸ hResource, ?_, ?_, ?_⟩
    · rw [tallies.bytes, sum_blocks hDirectory, ← hCapacity, slabStorage, Layout.array,
        Nat.mul_comm (Stored.slot α).size, Nat.mul_assoc]
      exact Nat.zero_add _
    · have hBlocks := tallies.blocks
      rw [countP_blocks hSize hDirectory] at hBlocks
      exact hBlocks.trans (Nat.add_assoc ..).symm
    · have hAsks : (effects course).countP Effect.asks + p.slabCount = _ :=
        leads.countP_asks (slabStorage_size_ne_zero packs₀)
      rw [Effect.allocations_foldl, ← hAsks, hCount]
      exact Nat.zero_add _

/-- Memory that grants every request, under a counting layer. -/
def endless : Environment := { resource := (Resource.ofPolicy fun _ _ _ => true).counted }

theorem keepsMemory_tracked : Effect.KeepsMemory Tracked := ⟨fun _ _ => rfl, fun _ _ _ => rfl⟩

/-- Construct so many values, one after the other. -/
def Program.fill : Nat → Program Tracked
  | 0 => .done
  | n + 1 => .construct ⟨0, false⟩ .done .done none (fill n)

/-- While the block of the first slab is obtained, another value is constructed, so the block is not
needed. Eight more values follow. -/
def Program.overtaking : Program Tracked :=
  .construct ⟨1, false⟩ (.construct ⟨2, false⟩ .done .done none .done) .done none (.fill 7)

/-- In the end there are five slabs in a directory for eight, which has grown twice, and one block
was discarded. -/
theorem Program.keeps_footprint_overtaking :
    ∃ view ∈ (overtaking.run (Usage.start (pair Tracked) endless)).state.views,
      ∃ course l inner, view.env.resource = .counting l inner ∧ Footprint 2 course view.pool l ∧
        view.pool.slabCount = 5 ∧ l.liveBytes = 352 ∧ l.allocations = 8 ∧
        course.countP Stride.grows + course.countP Stride.discards = 3 := by
  let w := overtaking.run (Usage.start (pair Tracked) endless)
  have hView : (⟨w.pool, w.env, w.state.book⟩ : Host Tracked (Book Tracked)) ∈ w.state.views :=
    List.mem_append_right _ List.mem_cons_self
  have generous : endless.resource.Generous := fun _ _ _ => rfl
  obtain ⟨⟨claims, course, reached⟩, accounts⟩ :=
    Program.keeps_footprint create_pair rfl keepsMemory_tracked overtaking _ hView
  obtain ⟨l, inner, hResource, footprint⟩ := accounts claims course reached
    (Effect.granted_of_generous keepsMemory_tracked generous _)
  have hSlabs : w.pool.slabCount = 5 := by decide +kernel
  have hLedger : w.env.ledger?.map Ledger.allocations = some 8 := by decide +kernel
  have hAllocations : l.allocations = 8 := by
    have hOutermost : w.env.ledger? = some l := congrArg (·.ledgers.head?) hResource
    rw [hOutermost] at hLedger
    exact Option.some.inj hLedger
  have hBytes := footprint.bytes
  have hRequests := footprint.requests
  rw [hSlabs] at hBytes hRequests
  exact ⟨_, hView, course, l, inner, hResource, footprint, hSlabs, hBytes, hAllocations, by omega⟩

end Pool
end TaskMemory

import TaskMemory.Contention.Churn
import TaskMemory.Proofs.Graph.Keeping
import TaskMemory.Proofs.Pool.Peak

/-!
Pools of tasks that are filled and emptied by turns. `Stocked` says which tasks are in a pool, that
its slabs are those that the largest number of tasks so far has called for, and that the memory
under it has the account of its blocks. An insertion succeeds unless all slabs that the pool may
have are full, and a removal always does, so both keep this.
-/
namespace TaskMemory

/-- The memory inside all layers grants whatever fits the address space. -/
def Resource.Ample : Resource → Prop
  | .system policy _ _ => policy = Policy.unlimited
  | .counting _ inner | .tracing inner => inner.Ample

/-- A block that fits the address space. -/
def Layout.Fits (block : Layout) : Prop := block.size + block.align < Policy.addressSpace

namespace Resource.Ample

variable {r : Resource} {block : Layout}

/-- Ample memory grants every block that fits into an address space. -/
theorem fst_allocate (ample : r.Ample) (fits : block.Fits) : (r.allocate block).1 = true := by
  induction r with
  | system policy requests live =>
      obtain rfl : policy = Policy.unlimited := ample
      have hGranted : Policy.unlimited requests live block = true :=
        decide_eq_true (show block.size + block.align < Policy.addressSpace from fits)
      rw [Resource.allocate, if_pos hGranted]
  | counting ledger inner ih =>
      have hInner := ih ample
      rcases hOutcome : inner.allocate block with ⟨granted, inner', events⟩
      rw [hOutcome] at hInner
      obtain rfl : granted = true := hInner
      rw [Resource.allocate, hOutcome]
  | tracing inner ih => exact ih ample

/-- Ample memory is ample after any request. -/
theorem allocate (ample : r.Ample) (block : Layout) : (r.allocate block).2.1.Ample := by
  induction r with
  | system policy requests live =>
      rw [Resource.allocate]
      split <;> exact ample
  | counting ledger inner ih =>
      have hInner := ih ample
      rcases hOutcome : inner.allocate block with ⟨_ | _, inner', events⟩ <;>
        rw [hOutcome] at hInner <;> rw [Resource.allocate, hOutcome] <;> exact hInner
  | tracing inner ih => exact ih ample

theorem deallocate (ample : r.Ample) (block : Layout) : (r.deallocate block).1.Ample := by
  induction r with
  | system policy requests live => exact ample
  | counting ledger inner ih => exact ih ample
  | tracing inner ih => exact ih ample

end Resource.Ample

namespace Effect

variable {α : Type} [Stored α] {env : Environment} {held out : Multiset Layout}

theorem ample_act (keeps : KeepsMemory α) (ample : env.resource.Ample) (e : Effect α) :
    (e.act env).resource.Ample := by
  cases e with
  | obtain block =>
      rw [act, Environment.allocate]
      split
      · exact ample
      · exact ample.allocate block
  | giveBack block =>
      rw [act, Environment.release]
      split
      · exact ample
      · exact ample.deallocate block
  | raise => exact ample
  | beginDrop v => exact (keeps.beginDrop v env).symm ▸ ample
  | endDrop unwinding v => exact (keeps.endDrop unwinding v env).symm ▸ ample

/-- These blocks are out of ample memory, and a counting layer around it says so. -/
structure Counts (env : Environment) (held : Multiset Layout) : Prop where
  ample : env.resource.Ample
  counting : ∃ l inner, env.resource = .counting l inner ∧ Tallies {} l held

/-- What fits the address space can be obtained, and what is out can be given back. -/
theorem Counts.replay (keeps : KeepsMemory α) {es : List (Effect α)} (counts : Counts env held)
    (hAccount : account es held = some out) (hFits : ∀ block, obtain block ∈ es → block.Fits) :
    Counts (replay es env) out := by
  induction es generalizing env held with
  | nil => exact Option.some.inj hAccount ▸ counts
  | cons e es ih =>
      obtain ⟨middle, hFirst, hRest⟩ := Option.bind_eq_some_iff.mp hAccount
      obtain ⟨l, inner, hEnv, tallies⟩ := counts.counting
      have hGranted : ∀ block, e = obtain block → block.size ≠ 0 →
          (env.resource.allocate block).1 = true := by
        rintro block rfl -
        exact counts.ample.fst_allocate (hFits block List.mem_cons_self)
      obtain ⟨inner', hAct⟩ := counting_act keeps hEnv hGranted
      exact ih ⟨ample_act keeps counts.ample e, _, inner', hAct, tallies.charge hFirst⟩ hRest
        fun block hMem => hFits block (List.mem_cons_of_mem _ hMem)

theorem Counts.raise (counts : Counts env held) (event : Event) : Counts (env.raise event) held :=
  ⟨counts.ample, counts.counting⟩

end Effect

namespace Churn

open Pool (Holding Moment Book)

theorem keepsMemory_task : Effect.KeepsMemory Task := ⟨fun _ _ => rfl, fun _ _ _ => rfl⟩

/-- The drop of a task does not end in a fault. -/
theorem fst_perform_task (es : List (Effect Task)) (env : Environment) :
    (Effect.perform es env).1 = none := by
  induction es generalizing env with
  | nil => rfl
  | cons e es ih =>
      have hNone : e.fault? env = none := by cases e <;> rfl
      rw [Effect.perform, hNone]
      exact ih (e.act env)

/-- The number of tasks that the pool can have at the same time. -/
def room (o : ChurnOptions) : Nat := o.slabCapacity.toNat * o.maxSlabs.toNat

/-- A pool in which these tasks are, and in which there have been so many at the same time. -/
structure Stocked (o : ChurnOptions) (peak : Nat) (contents : List (Holding Task)) (p : Pool Task)
    (env : Environment) : Prop where
  fits : (⟨p, { contents }, []⟩ : Moment Task).Fits
  capacity : p.slabCapacity = o.slabCapacity.toNat
  limit : p.codec.maxSlabs.toNat = o.maxSlabs.toNat
  slabs : p.slabCount = peak ⌈/⌉ o.slabCapacity.toNat
  covered : contents.length ≤ peak
  memory : Effect.Counts env p.blocks

variable {σ : Type} {o : ChurnOptions} {peak : Nat} {contents : List (Holding Task)}
  {p : Pool Task} {env : Environment} {w : Host Task σ} {r : Holding Task} {task : Task}

namespace Stocked

theorem live (stocked : Stocked o peak contents p env) : p.live.toNat = contents.length := by
  simpa [Book.seats] using stocked.fits.live

/-- The tasks and the free slots together are all slots of the slabs that there are. -/
theorem length_add_freeSlots (stocked : Stocked o peak contents p env) :
    contents.length + p.freeSlots = p.slabCount * o.slabCapacity.toNat := by
  have hCount := stocked.fits.live_add_freeSlots_add_inits
  rw [← stocked.capacity]
  simpa [stocked.live, Pool.capacity] using hCount

theorem slabCapacity_pos (stocked : Stocked o peak contents p env) :
    0 < o.slabCapacity.toNat := by
  obtain ⟨_, _, packs⟩ := stocked.fits.packs
  exact stocked.capacity ▸ Pool.slabCapacity_pos packs

/-- If a slot is free, there is one task less than slots at most. -/
theorem length_lt_of_vacancy (stocked : Stocked o peak contents p env) {site : Place}
    (hVacancy : p.vacancy? = some site) :
    contents.length + 1 ≤ p.slabCount * o.slabCapacity.toNat := by
  have claimed := (Pool.Step.claim hVacancy).fits stocked.fits
  have hCount := claimed.live_add_freeSlots_add_inits
  have hCapacity : (p.mapSlab site.slab Slab.unlink).capacity =
      p.slabCount * o.slabCapacity.toNat := by
    rw [← stocked.capacity]
    exact congrArg (· * p.slabCapacity) (Pool.slabCount_mapSlab ..)
  change p.live.toNat + (p.mapSlab site.slab Slab.unlink).freeSlots + 1 =
    (p.mapSlab site.slab Slab.unlink).capacity at hCount
  rw [stocked.live, hCapacity] at hCount
  omega

/-- The blocks of a further slab fit the address space. -/
theorem fits_growth (stocked : Stocked o peak contents p env) (hRoom : p.atLimit = false)
    (block : Layout) (hMem : Effect.obtain block ∈ (.obtain p.slabStorage :: p.growth :
      List (Effect Task))) : block.Fits := by
  have hSlabs : p.slabCount < 2 ^ 32 :=
    (Nat.lt_of_not_le (of_decide_eq_false hRoom)).trans
      (stocked.limit.trans_lt o.maxSlabs.toNat_lt)
  have hCapacity := p.slabCapacity_lt
  simp only [Layout.Fits, Policy.addressSpace]
  rcases List.mem_cons.mp hMem with hStorage | hGrowth
  · obtain rfl := Effect.obtain.inj hStorage
    change 64 * p.slabCapacity + 8 < 1 <<< 47
    omega
  · rw [Pool.growth] at hGrowth
    split at hGrowth
    · next hFull =>
        have hBlock :
            block = Pool.directoryEntry.array (Table.nextCapacity p.directory.capacity) := by
          simpa using hGrowth
        rw [hBlock, ← hFull, Table.nextCapacity]
        change 24 * (if p.slabCount = 0 then 4 else p.slabCount * 2) + 8 < 1 <<< 47
        split <;> omega
    · cases hGrowth

/-- A task is put into a slot that is free. -/
theorem insert_of_vacancy (stocked : Stocked o peak contents w.pool w.env) (task : Task)
    {site : Place} (hVacancy : w.pool.vacancy? = some site) :
    ∃ h pool env, w.insert task = (.ok h, { w with pool, env }) ∧
      Stocked o (max peak (contents.length + 1)) (contents ++ [⟨h, 0, task⟩]) pool env := by
  have claimed := (Pool.Step.claim hVacancy).fits stocked.fits
  have hHoused : w.pool.Housed _ := stocked.fits.housed
  have hSlabs := (Pool.slabCount_publish task (w.pool.mapSlab site.slab Slab.unlink) site).trans
    (Pool.slabCount_mapSlab ..)
  rw [Host.insert_eq, Host.acquire_of_vacancy Host.idle hHoused hVacancy]
  refine ⟨_, _, _, rfl, claimed.publish 0 task, stocked.capacity, stocked.limit, ?_, ?_, ?_⟩
  · exact hSlabs.trans (Pool.ceilDiv_of_room stocked.slabCapacity_pos stocked.slabs
      (stocked.length_lt_of_vacancy hVacancy))
  · simp
  · have hBlocks := Pool.blocks_congr hSlabs rfl rfl
    exact hBlocks ▸ stocked.memory.raise _

/-- A task is put into the first slot of a further slab. -/
theorem insert_of_growth (stocked : Stocked o peak contents w.pool w.env) (task : Task)
    (hVacancy : w.pool.vacancy? = none) (hLimit : w.pool.atLimit = false)
    (hFull : contents.length = w.pool.slabCount * o.slabCapacity.toNat) :
    ∃ h pool env, w.insert task = (.ok h, { w with pool, env }) ∧
      Stocked o (max peak (contents.length + 1)) (contents ++ [⟨h, 0, task⟩]) pool env := by
  have grown := (Pool.Step.append hVacancy hLimit).fits stocked.fits
  have hSlabs := Pool.slabCount_publish task w.pool.append ⟨w.pool.slabCount, 0⟩
  rw [Host.insert_eq, Host.acquire_of_room Host.idle hVacancy hLimit rfl,
    Pool.extend_of_room hVacancy hLimit]
  refine ⟨_, _, _, rfl, grown.publish 0 task, stocked.capacity, stocked.limit, ?_, ?_, ?_⟩
  · rw [hFull]
    exact (hSlabs.trans (Pool.slabCount_append _)).trans
      (Pool.ceilDiv_of_full stocked.slabCapacity_pos stocked.slabs)
  · simp
  · have hBlocks : (w.pool.append.publish ⟨w.pool.slabCount, 0⟩ task).blocks =
        w.pool.append.blocks := Pool.blocks_congr hSlabs rfl rfl
    have grownMemory := stocked.memory.replay keepsMemory_task
      (Pool.account_append w.pool) (stocked.fits_growth hLimit)
    exact hBlocks ▸ (grownMemory.raise _).raise _

/-- A task is put into a pool that is not full. -/
theorem insert (stocked : Stocked o peak contents w.pool w.env) (task : Task)
    (hRoom : contents.length < room o) :
    ∃ h pool env, w.insert task = (.ok h, { w with pool, env }) ∧
      Stocked o (max peak (contents.length + 1)) (contents ++ [⟨h, 0, task⟩]) pool env := by
  cases hVacancy : w.pool.vacancy? with
  | some site => exact stocked.insert_of_vacancy task hVacancy
  | none =>
      have hFull : contents.length = w.pool.slabCount * o.slabCapacity.toNat := by
        have hCount := stocked.length_add_freeSlots
        rwa [stocked.fits.housed.tidy.freeSlots_eq_zero hVacancy, Nat.add_zero] at hCount
      cases hLimit : w.pool.atLimit with
      | false => exact stocked.insert_of_growth task hVacancy hLimit hFull
      | true =>
          -- With all slabs that it may have, a pool without a free slot is full.
          have hSlabs := Nat.mul_le_mul_right o.slabCapacity.toNat (of_decide_eq_true hLimit)
          rw [stocked.limit, Nat.mul_comm, ← hFull] at hSlabs
          exact absurd hRoom (Nat.not_lt.mpr hSlabs)

/-- A task for which there is no slot does not get into the pool. -/
theorem insert_of_full (stocked : Stocked o peak contents w.pool w.env) (task : Task)
    (hFull : contents.length = room o) :
    ∃ env, w.insert task = (.error (.noSlot w.pool.exhausted), { w with env }) ∧
      Stocked o peak contents w.pool env := by
  have hWithin : w.pool.slabCount * o.slabCapacity.toNat ≤ room o :=
    (Nat.mul_le_mul_right _ (stocked.fits.within.trans_eq stocked.limit)).trans_eq
      (Nat.mul_comm ..)
  have hVacancy : w.pool.vacancy? = none := by
    by_contra hSome
    obtain ⟨site, hSite⟩ := Option.ne_none_iff_exists'.mp hSome
    have hLess := stocked.length_lt_of_vacancy hSite
    omega
  have hLimit : w.pool.atLimit = true := by
    have hCount := stocked.length_add_freeSlots
    have hSlabs : o.slabCapacity.toNat * o.maxSlabs.toNat ≤
        o.slabCapacity.toNat * w.pool.slabCount := by
      rw [Nat.mul_comm _ w.pool.slabCount, ← hCount]
      exact hFull.ge.trans (Nat.le_add_right ..)
    exact decide_eq_true
      (stocked.limit.trans_le (Nat.le_of_mul_le_mul_left hSlabs stocked.slabCapacity_pos))
  rw [Host.insert_eq, Host.acquire_of_atLimit Host.idle hVacancy hLimit]
  exact ⟨_, rfl, { stocked with memory := stocked.memory.raise _ }⟩

/-- A task is removed from the pool. -/
theorem remove (stocked : Stocked o peak contents w.pool w.env) (hMem : r ∈ contents) :
    ∃ pool, w.remove r.handle = (.ok (), { w with pool }) ∧
      Stocked o peak (contents.eraseP (·.handle = r.handle)) pool w.env := by
  have hFront := stocked.fits.housed.front
    (Book.seats_perm w.pool.place (stocked.fits.find?_eq hMem))
  have hSlabs : ((w.pool.update (w.pool.place r.handle) Slot.retire).recycled
      (w.pool.place r.handle)).slabCount = w.pool.slabCount :=
    (Pool.slabCount_reclaim ..).trans (Pool.slabCount_update ..)
  refine ⟨_, Pool.Traffic.remove_eq hFront, stocked.fits.removed hMem, stocked.capacity,
    stocked.limit, hSlabs.trans stocked.slabs, ?_, ?_⟩
  · exact List.eraseP_sublist.length_le.trans stocked.covered
  · exact Pool.blocks_congr hSlabs rfl rfl ▸ stocked.memory

/-- At the end of a pool nothing is out. -/
theorem dispose (stocked : Stocked o peak [] p env) : Effect.Counts (p.dispose env).2 0 := by
  have hDispose : p.dispose env = _ := stocked.fits.dispose_eq rfl rfl .nil .nil env
  have hQuiet : (p.dispose env).1 = none := by
    rw [hDispose]
    exact fst_perform_task _ _
  have hReplay : p.dispose env = _ := stocked.fits.dispose_eq_of_quiet rfl rfl .nil .nil hQuiet
  rw [hReplay]
  apply stocked.memory.replay keepsMemory_task (Pool.account_teardown p [])
  intro block hMem
  simp [Pool.teardown, Pool.slabsTeardown, Pool.slabTeardown, Effect.drops] at hMem

end Stocked

/-- These are the handles of the tasks in a pool. -/
def Holds (o : ChurnOptions) (peak : Nat) (handles : List Handle) (p : Pool Task)
    (env : Environment) : Prop :=
  ∃ contents, Stocked o peak contents p env ∧ (contents.map Holding.handle).Perm handles

namespace Holds

variable {handles rest : List Handle} {h : Handle}

/-- While there is room a task is put into the pool, under a new handle that leads to it. -/
theorem insert (holds : Holds o peak handles w.pool w.env) (task : Task)
    (hRoom : handles.length < room o) :
    ∃ h pool env, w.insert task = (.ok h, { w with pool, env }) ∧
      Holds o (max peak (handles.length + 1)) (handles ++ [h]) pool env ∧
      ({ w with pool, env } : Host Task σ).get? h = .ok (some task) := by
  obtain ⟨contents, stocked, hHandles⟩ := holds
  have hLength : contents.length = handles.length := by simpa using hHandles.length_eq
  obtain ⟨h, pool, env, hInsert, after⟩ := stocked.insert task (hLength ▸ hRoom)
  rw [hLength] at after
  let r : Holding Task := ⟨h, 0, task⟩
  have hMem : r ∈ contents ++ [r] := List.mem_append_right _ List.mem_cons_self
  have hGet := Moment.Fits.get?_eq (w := ({ w with pool, env } : Host Task σ)) after.fits hMem
  have hAppend : ((contents ++ [r]).map Holding.handle).Perm (handles ++ [h]) := by
    rw [List.map_append]
    exact hHandles.append_right _
  exact ⟨h, pool, env, hInsert, ⟨_, after, hAppend⟩, hGet⟩

/-- Without room a construction is refused, and the tasks stay as they are. -/
theorem insert_of_full (holds : Holds o peak handles w.pool w.env) (task : Task)
    (hFull : handles.length = room o) :
    ∃ env, w.insert task = (.error (.noSlot w.pool.exhausted), { w with env }) ∧
      Holds o peak handles w.pool env := by
  obtain ⟨contents, stocked, hHandles⟩ := holds
  have hLength : contents.length = handles.length := by simpa using hHandles.length_eq
  obtain ⟨env, hInsert, after⟩ := stocked.insert_of_full task (hLength.trans hFull)
  exact ⟨env, hInsert, contents, after, hHandles⟩

/-- A task that is there can be discarded, which makes room for another one. -/
theorem discard {w : Site} (holds : Holds o peak handles w.pool w.env)
    (hPerm : handles.Perm (h :: rest)) :
    ∃ pool, discard h w = .ok { w with pool } ∧ Holds o peak rest pool w.env := by
  obtain ⟨contents, stocked, hHandles⟩ := holds
  have hHandle : h ∈ contents.map Holding.handle :=
    (hHandles.trans hPerm).mem_iff.mpr List.mem_cons_self
  obtain ⟨r, hMem, rfl⟩ := List.mem_map.mp hHandle
  obtain ⟨pool, hRemove, after⟩ := stocked.remove hMem
  have hErase : contents.Perm (r :: contents.eraseP (·.handle = r.handle)) :=
    (Book.contents_perm (stocked.fits.find?_eq hMem)).2
  have hRest := ((hErase.map Holding.handle).symm.trans hHandles).trans hPerm
  refine ⟨pool, ?_, _, after, hRest.cons_inv⟩
  rw [Churn.discard, hRemove]

/-- There are as many slabs as the most tasks at one time have needed. -/
theorem slabs (holds : Holds o peak handles p env) :
    p.slabCount = peak ⌈/⌉ o.slabCapacity.toNat :=
  have ⟨_, stocked, _⟩ := holds
  stocked.slabs

/-- Nothing is out any longer at the end of a pool without tasks. -/
theorem dispose (holds : Holds o peak [] p env) : Effect.Counts (p.dispose env).2 0 := by
  obtain ⟨contents, stocked, hHandles⟩ := holds
  obtain rfl : contents = [] := List.map_eq_nil_iff.mp (List.perm_nil.mp hHandles)
  exact stocked.dispose

end Holds

end Churn

end TaskMemory

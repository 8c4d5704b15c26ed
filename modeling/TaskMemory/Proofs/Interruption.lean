import TaskMemory.Payload.Basic
import TaskMemory.Proofs.Duties
import TaskMemory.Proofs.Pool.Disposal
import TaskMemory.Proofs.Store.Registry
import TaskMemory.Store.Value

/-!
What becomes of a pool, a store or a payload when the drop of a value ends in a fault at the end of
it. The values behind that value are not dropped, and of the blocks only the directory of a pool and
the table of a store are given back after the fault. So something is lost, unless it is a store in
which nothing but objects without bytes, and without anything to drop, stands from there on.
-/
namespace TaskMemory

open Duty (Complete Ending left perform)

namespace Pool

variable {α : Type} [Stored α] {p : Pool α} {order : List (Holding α)}

/-- The drop of a value by the end of a pool. -/
def dropHolding (r : Holding α) (env : Environment) : Option Fault × Environment :=
  match Stored.drop false r.value env with
  | (fault, _, env) => (fault, env)

/-- What is to be done at the end of a slab. -/
def slabDuties (p : Pool α) (order : List (Holding α)) (k : Nat) : List (Duty (Holding α)) :=
  (order.filter fun r => (p.place r.handle).slab = k).map .drop ++ [.giveBack p.slabStorage]

def duties (p : Pool α) (order : List (Holding α)) : List (Duty (Holding α)) :=
  (List.range p.slabCount).flatMap (p.slabDuties order)

/-- What the pool does for a duty. -/
def protocol : Duty (Holding α) → List (Effect α)
  | .drop r => Effect.drop false r.value
  | .giveBack block => [.giveBack block]

/-- The duties of a pool are effects on its environment, and both end with the same first fault. -/
theorem perform_protocol (duties : List (Duty (Holding α))) (env : Environment) :
    Effect.perform (duties.flatMap protocol) env =
      ((perform dropHolding duties env).1, (perform dropHolding duties env).2.2) := by
  induction duties generalizing env with
  | nil => rfl
  | cons d rest ih =>
      rw [List.flatMap_cons, Effect.perform_append]
      cases d with
      | giveBack block => exact ih (env.release block)
      | drop r =>
          rw [protocol, Effect.perform_drop, perform, dropHolding]
          rcases Stored.drop false r.value env with ⟨_ | fault, _, after⟩
          · exact ih after
          · rfl

/-- The end of the slabs of a pool is made of duties. -/
theorem slabsTeardown_eq (p : Pool α) (order : List (Holding α)) :
    p.slabsTeardown order = (p.duties order).flatMap protocol := by
  rw [slabsTeardown, duties, List.flatMap_assoc]
  apply List.flatMap_congr
  intro k _
  rw [slabTeardown, slabDuties, List.flatMap_append, List.flatMap_map, Effect.drops,
    List.flatMap_map]
  rfl

/-- At the end of a slab the values are dropped that are in it. -/
theorem values_slabDuties (p : Pool α) (order : List (Holding α)) (k : Nat) :
    Duty.values (p.slabDuties order k) =
      order.filter fun r => (p.place r.handle).slab = k := by
  rw [slabDuties, Duty.values_append, Duty.values_drops]
  exact List.append_nil _

/-- At the end of a pool every value is dropped, in the order of the places. -/
theorem values_duties (hOrder : p.Ordered order)
    (hWithin : ∀ r ∈ order, (p.place r.handle).slab < p.slabCount) :
    Duty.values (p.duties order) = order := by
  rw [duties, Duty.values, List.filterMap_flatMap]
  exact (List.flatMap_congr fun k _ => p.values_slabDuties order k).trans
    (hOrder.flatMap_slabs hWithin)

/-- Every slab is given back. -/
theorem blocks_slabs (p : Pool α) (order : List (Holding α)) (slabs : List Nat) :
    Duty.blocks (slabs.flatMap (p.slabDuties order)) =
      List.replicate slabs.length p.slabStorage := by
  induction slabs with
  | nil => rfl
  | cons k slabs ih =>
      rw [List.flatMap_cons, Duty.blocks_append, ih, slabDuties, Duty.blocks_append,
        Duty.blocks_drops]
      rfl

/-- How a pool ends in which these values stand. -/
structure Ends (p : Pool α) (order : List (Holding α)) : Prop where
  ending : Ending dropHolding (p.duties order) p.directoryBlock p.dispose
  values : Duty.values (p.duties order) = order
  blocks : (Duty.blocks (p.duties order) + p.directoryBlock : Multiset Layout) = p.blocks
  /-- After a fault the values of the later slots and the slabs from its slot on are left. -/
  broken : ∀ env fault, (p.dispose env).1 = some fault → ∃ before r later,
    order = before ++ r :: later ∧
    Duty.values (left dropHolding (p.duties order) env) = later ∧
    Duty.blocks (left dropHolding (p.duties order) env) =
      List.replicate (p.slabCount - (p.place r.handle).slab) p.slabStorage
  complete_iff : ∀ env,
    Complete dropHolding (p.duties order) env ↔ (p.dispose env).1 = none

/-- How many slabs are behind one of them. -/
theorem range_split {n k : Nat} {first last : List Nat} (h : List.range n = first ++ k :: last) :
    k + last.length + 1 = n := by
  have hLength := congrArg List.length h
  have hMiddle := congrArg (·[first.length]?) h
  simp only [List.length_range, List.length_append, List.length_cons] at hLength
  simp only [List.getElem?_append_right (Nat.le_refl _), Nat.sub_self, List.getElem?_cons_zero,
    List.getElem?_range (show first.length < n by omega), Option.some.injEq] at hMiddle
  omega

/-- Behind a value come the other values of its slab, the block of the slab, and the later slabs. -/
theorem blocks_behind {before after : List (Duty (Holding α))} {r : Holding α}
    (h : p.duties order = before ++ .drop r :: after) :
    (p.place r.handle).slab < p.slabCount ∧ Duty.blocks after =
      List.replicate (p.slabCount - (p.place r.handle).slab) p.slabStorage := by
  obtain ⟨first, k, last, front, back, hSlabs, hSlab, -, rfl⟩ := Duty.exists_of_flatMap_eq h
  -- The duties of a slab end with its block, so the block is still to come.
  obtain ⟨earlier, later, hValues, rfl⟩ := Duty.exists_of_row hSlab
  have hMem : r ∈ order.filter fun r => (p.place r.handle).slab = k :=
    hValues ▸ List.mem_append_right _ List.mem_cons_self
  have hHere : (p.place r.handle).slab = k := of_decide_eq_true (List.mem_filter.mp hMem).2
  have hCount := range_split hSlabs
  have hLeft : Duty.blocks (later.map .drop ++ [.giveBack p.slabStorage]) = [p.slabStorage] := by
    rw [Duty.blocks_append, Duty.blocks_drops]
    rfl
  have hRest : p.slabCount - k = last.length + 1 := by omega
  refine ⟨by omega, ?_⟩
  rw [Duty.blocks_append, hLeft, blocks_slabs, hHere, hRest, List.replicate_succ]
  rfl

/-- A pool ends as its duties say. -/
theorem ends (hDispose : ∀ env, p.dispose env =
      match Effect.perform (p.slabsTeardown order) env with
      | (fault, env) => (fault, p.directory.release directoryEntry env))
    (hOrder : p.Ordered order) (hWithin : ∀ r ∈ order, (p.place r.handle).slab < p.slabCount)
    (hSize : p.slabStorage.size ≠ 0) : p.Ends order := by
  have ending : Ending dropHolding (p.duties order) p.directoryBlock p.dispose := by
    apply Duty.ending
    intro env
    have hDirectory := release_directory_eq p
      (perform dropHolding (p.duties order) env).2.2
    rw [Effect.replay, List.foldl_map] at hDirectory
    rw [hDispose, slabsTeardown_eq, perform_protocol]
    exact Prod.ext rfl hDirectory
  refine ⟨ending, values_duties hOrder hWithin, ?_, ?_, fun env => ending.complete_iff ?_⟩
  · rw [duties, blocks_slabs, List.length_range, Multiset.coe_replicate]
    rfl
  · intro env fault hFault
    obtain ⟨before, r, _, _, hSplit, -⟩ := ending.broken env fault hFault
    have hValues := congrArg Duty.values hSplit
    rw [values_duties hOrder hWithin, Duty.values_append] at hValues
    exact ⟨_, r, _, hValues, rfl, (blocks_behind hSplit).2⟩
  · intro fault hFault
    obtain ⟨before, r, _, _, hSplit, -⟩ := ending.broken env fault hFault
    obtain ⟨hSlab, hBlocks⟩ := blocks_behind hSplit
    refine ⟨p.slabStorage, ?_, hSize⟩
    rw [hBlocks]
    exact List.mem_replicate.mpr ⟨Nat.sub_ne_zero_of_lt hSlab, rfl⟩

/-- Whatever has run, in whatever nesting, what stands in the pool then is what its end drops. -/
theorem Program.exists_ends {o : PoolOptions} (h : Pool.create o = .ok p) (env : Environment)
    (program : Program α) {w : Usage α} (hRun : program.run (Usage.start p env) = w) :
    ∃ order, order.Perm w.state.book.held ∧ w.pool.Ordered order ∧ w.pool.Ends order := by
  have follows : Follows (Moment.initial p) env [] [] w := hRun ▸ program.follows_initial h env
  have fits := follows.fits (Moment.fits_initial h)
  obtain ⟨order, hPerm, hOrder⟩ := fits.exists_order
  obtain ⟨_, _, packs⟩ := fits.packs
  have hWithin : ∀ r ∈ order, (w.pool.place r.handle).slab < w.pool.slabCount := fun r hr =>
    (fits.housed.tidy.within _ ((Moment.mem_sites_iff ..).mpr
      (Or.inr ⟨r, hPerm.mem_iff.mp hr, rfl⟩))).1
  have hDispose := fits.dispose_eq rfl follows.closing hPerm hOrder
  exact ⟨order, hPerm, hOrder, ends hDispose hOrder hWithin (slabStorage_size_ne_zero packs)⟩

end Pool

namespace Store

variable {κ υ : Type} [ObjectKind κ] [Object υ κ]

/-- The drop of an object by the end of a store. -/
def dropObject (v : υ) (env : Environment) : Option Fault × Environment := Object.drop false v env

def blockOf (v : υ) : Layout := ObjectKind.layout (Object.kind v)

/-- What is to be done at the end of a store with these objects. -/
def duties (r : Registry υ) : List (Duty υ) :=
  r.flatMap fun b => [.drop b.2, .giveBack (blockOf b.2)]

def tableBlock (s : Store κ υ) : List Layout :=
  if s.table.capacity = 0 then [] else [tableEntry.array s.table.capacity]

/-- At the end of a store every object is dropped. -/
theorem values_duties (r : Registry υ) : Duty.values (duties r) = r.map Prod.snd := by
  induction r with
  | nil => rfl
  | cons b r ih => exact congrArg (b.2 :: ·) ih

/-- Every object is in a block of its own, and it is given back. -/
theorem blocks_duties (r : Registry υ) : Duty.blocks (duties r) = r.map fun b => blockOf b.2 := by
  induction r with
  | nil => rfl
  | cons b r ih => exact congrArg (blockOf b.2 :: ·) ih

/-- How a store ends that has these objects, in the order of their construction. -/
structure Ends (s : Store κ υ) (r : Registry υ) : Prop where
  ending : Ending dropObject (duties r) s.tableBlock s.dispose
  values : Duty.values (duties r) = s.objects.toList
  blocks : Duty.blocks (duties r) = s.entries.map fun e => ObjectKind.layout e.kind
  /-- After a fault the block of its object is left, and all the objects behind it. Nothing is lost
  by that if there are no bytes in any of these blocks and nothing to drop in these objects. -/
  broken : ∀ env fault, (s.dispose env).1 = some fault → ∃ before key v later,
    r = before ++ (key, v) :: later ∧
    left dropObject (duties r) env = .giveBack (blockOf v) :: duties later ∧
    (Complete dropObject (duties r) env ↔ (blockOf v).size = 0 ∧ ∀ b ∈ later,
      (blockOf b.2).size = 0 ∧ ∀ env, Object.drop false b.2 env = (none, env))

/-- The objects of a store are dropped in their order, each followed by its block, up to the first
fault. -/
theorem Service.Mirrors.dropObjects_eq {x : Service κ υ} {r : Registry υ} (h : x.Mirrors r)
    {l : List ((UInt64 × υ) × Nat)} (hObjects : ∀ b ∈ l, r[b.2]? = some b.1) (env : Environment) :
    x.store.dropObjects (l.map fun b => ⟨b.1.1, Object.kind b.1.2, b.2⟩) env =
      ((perform dropObject (duties (l.map Prod.fst)) env).1,
        (perform dropObject (duties (l.map Prod.fst)) env).2.2) := by
  induction l generalizing env with
  | nil => rfl
  | cons b l ih =>
      have hFirst : x.store.object? b.2 = some b.1.2 := by
        rw [h.object?_eq, hObjects b List.mem_cons_self]
        rfl
      have hRest := ih fun b hb => hObjects b (List.mem_cons_of_mem _ hb)
      rw [List.map_cons, dropObjects, hFirst, Option.elim_some]
      rw [List.map_cons, duties, List.flatMap_cons, List.cons_append, perform, dropObject]
      rcases Object.drop false b.1.2 env with ⟨_ | fault, after⟩
      · exact hRest _
      · rfl

/-- A store ends as its duties say. -/
theorem Service.Mirrors.ends {x : Service κ υ} {r : Registry υ} (h : x.Mirrors r) :
    x.store.Ends r := by
  have ending : Ending dropObject (duties r) x.store.tableBlock x.store.dispose := by
    apply Duty.ending
    intro env
    have hObjects : ∀ b ∈ r.zipIdx, r[b.2]? = some b.1 := fun b hb =>
      List.mk_mem_zipIdx_iff_getElem?.mp hb
    have hDrops := h.dropObjects_eq hObjects env
    rw [← h.entries, List.zipIdx_map_fst] at hDrops
    have hTable : ∀ env, x.store.table.release tableEntry env =
        x.store.tableBlock.foldl Environment.release env := fun env => by
      rw [Table.release, tableBlock]
      split <;> rfl
    rw [dispose, hDrops]
    exact Prod.ext rfl (hTable _)
  have hBlocks : Duty.blocks (duties r) =
      x.store.entries.map fun e => ObjectKind.layout e.kind := by
    rw [h.entries, List.map_map, ← List.zipIdx_map_fst 0 r, blocks_duties, List.map_map]
    simp only [List.zipIdx_map_fst]
    rfl
  refine ⟨ending, (values_duties r).trans h.objects.symm, hBlocks, fun env fault hFault => ?_⟩
  obtain ⟨before, v, _, _, hSplit, -⟩ := ending.broken env fault hFault
  obtain ⟨first, ⟨key, held⟩, later, front, back, hRegistry, hHere, -, hBehind⟩ :=
    Duty.exists_of_flatMap_eq hSplit
  obtain ⟨rfl, rfl, rfl⟩ := Duty.eq_of_pair hHere
  have hLeft : left dropObject (duties r) env = .giveBack (blockOf held) :: duties later := hBehind
  refine ⟨first, key, held, later, hRegistry, hLeft, ?_⟩
  have hLater : (∀ d ∈ duties later, Duty.Void dropObject d) ↔ ∀ b ∈ later,
      (blockOf b.2).size = 0 ∧ ∀ env, Object.drop false b.2 env = (none, env) := by
    rw [duties, List.forall_mem_flatMap]
    apply forall₂_congr
    intro b _
    rw [List.forall_mem_cons, List.forall_mem_singleton]
    exact and_comm
  rw [Complete, hLeft, List.forall_mem_cons, hLater]
  rfl

end Store

namespace Payload

def dropUnrun (c : Callable) (env : Environment) : Option Fault × Environment := c.drop false env

def duties (p : Payload) : List (Duty Callable) := [.drop p.callable, .giveBack p.block]

/-- How a payload ends that has not been run. -/
structure Ends (p : Payload) : Prop where
  ending : Ending dropUnrun p.duties [] (p.drop false)
  broken : ∀ env fault, (p.drop false env).1 = some fault →
    left dropUnrun p.duties env = [.giveBack p.block]
  complete_iff : ∀ env, Complete dropUnrun p.duties env ↔ (p.drop false env).1 = none

/-- A payload that was never run ends as its duties say. -/
theorem ends {p : Payload} (hNew : p.spent = false) : p.Ends := by
  have ending : Ending dropUnrun p.duties [] (p.drop false) := by
    apply Duty.ending
    intro env
    rw [Payload.drop, hNew, Duty.finish, duties, perform, dropUnrun]
    rcases p.callable.drop false env with ⟨_ | fault, after⟩ <;> rfl
  have hBroken : ∀ env fault, (p.drop false env).1 = some fault →
      left dropUnrun p.duties env = [.giveBack p.block] := by
    intro env fault hFault
    obtain ⟨before, c, _, _, hSplit, -⟩ := ending.broken env fault hFault
    exact (Duty.eq_of_pair hSplit).2.2
  refine ⟨ending, hBroken, fun env => ending.complete_iff fun fault hFault => ?_⟩
  rw [hBroken env fault hFault]
  exact ⟨p.block, List.mem_cons_self, p.block_size_ne_zero⟩

end Payload

variable {α κ υ : Type} [Stored α] [ObjectKind κ] [Object υ κ] [DecidableEq κ]

/-- Whatever was done with a pool and with a store, and whatever a payload was made of that has not
been run: its end does all that is to be done exactly if no drop ends in a fault, or if it is a
store in which there is nothing to be done from the fault on. -/
theorem teardown_complete_iff {o : PoolOptions} {p : Pool α} (h : Pool.create o = .ok p)
    (env : Environment) (program : Pool.Program α) (requests : List (Store.Request κ υ))
    {payload : Payload} (hNew : payload.spent = false) :
    (∃ order, order.Perm (program.run (Pool.Usage.start p env)).state.book.held ∧
      (program.run (Pool.Usage.start p env)).pool.Ordered order ∧
      (program.run (Pool.Usage.start p env)).pool.Ends order) ∧
    ((⟨{}, env⟩ : Store.Service κ υ).run requests).2.store.Ends
      (Store.Registry.run [] requests).2 ∧
    payload.Ends := by
  have hStore : (⟨{}, env⟩ : Store.Service κ υ).Mirrors [] := Store.Service.mirrors_empty env
  exact ⟨program.exists_ends h env rfl, (hStore.run requests).2.ends, Payload.ends hNew⟩

/-- A bomb goes off in each of the three, with another value behind it in the first two. -/
def Pool.Program.minedPool : Pool.Program Tracked :=
  .construct ⟨1, false⟩ .done .done none <| .construct ⟨2, true⟩ .done .done none <|
  .construct ⟨3, false⟩ .done .done none .done

/-- A constructor that returns an object. -/
def Store.Constructor.returning {κ υ : Type} [Object υ κ] (v : υ) :
    Store.Constructor υ (Object.kind v) :=
  ⟨.ok v, fun _ h => congrArg Object.kind (Except.ok.inj h).symm⟩

def Store.minedRequests : List (Store.Request Kind Value) :=
  [.getOrConstruct .tracked 1 (.returning (Value.tracked ⟨2, true⟩)),
    .getOrConstruct .tracked 2 (.returning (Value.tracked ⟨3, false⟩))]

def Payload.mined : Payload := { callable := Callable.own ⟨7, true⟩ }

/-- None of the three ends completely. -/
theorem teardown_complete_iff_mined :
    (∃ w : Pool.Usage Tracked,
      Pool.Program.minedPool.run (Pool.Usage.start (Pool.pair Tracked) Pool.untouched) = w ∧
      ∃ order, w.pool.Ends order ∧ ¬ Complete Pool.dropHolding (w.pool.duties order) w.env) ∧
    (∃ x : Store.Service Kind Value,
      ((⟨{}, Pool.untouched⟩ : Store.Service Kind Value).run Store.minedRequests).2 = x ∧
      ∃ r, x.store.Ends r ∧ ¬ Complete Store.dropObject (Store.duties r) x.env) ∧
    Payload.mined.Ends ∧ ¬ Complete Payload.dropUnrun Payload.mined.duties Pool.untouched := by
  let x := ((⟨{}, Pool.untouched⟩ : Store.Service Kind Value).run Store.minedRequests).2
  have hNew : Payload.mined.spent = false := rfl
  obtain ⟨⟨order, _, _, pool⟩, store, payload⟩ := teardown_complete_iff Pool.create_pair
    Pool.untouched Pool.Program.minedPool Store.minedRequests hNew
  refine ⟨⟨_, rfl, order, pool, ?_⟩, ⟨_, rfl, _, store, ?_⟩, payload, ?_⟩
  · rw [pool.complete_iff]
    decide +kernel
  · have hFault : (x.store.dispose x.env).1 = some (.bomb 2) := by decide +kernel
    obtain ⟨before, key, v, later, hSplit, -, hComplete⟩ :=
      store.broken _ (.bomb 2) hFault
    have hSizes : ∀ b ∈ (Store.Registry.run [] Store.minedRequests).2,
        (Store.blockOf b.2).size ≠ 0 := by decide +kernel
    rw [hComplete]
    rintro ⟨hZero, -⟩
    exact hSizes (key, v) (hSplit ▸ List.mem_append_right _ List.mem_cons_self) hZero
  · rw [payload.complete_iff]
    decide +kernel

/-- What they leave behind: two slabs and the value in the second one, two objects, a payload. -/
theorem bombs_leave_blocks :
    (∃ w : Pool.Usage Tracked,
      Pool.Program.minedPool.run (Pool.Usage.start (Pool.pair Tracked) Pool.untouched) = w ∧
      (w.pool.dispose w.env).1 = some (.bomb 2) ∧ (w.pool.dispose w.env).2.drops = #[1, 2] ∧
      (w.pool.dispose w.env).2.ledger?.map Ledger.liveBytes = some 64) ∧
    (∃ x : Store.Service Kind Value,
      ((⟨{}, Pool.untouched⟩ : Store.Service Kind Value).run Store.minedRequests).2 = x ∧
      (x.store.dispose x.env).1 = some (.bomb 2) ∧ (x.store.dispose x.env).2.drops = #[2] ∧
      (x.store.dispose x.env).2.ledger?.map Ledger.liveBytes = some 32) ∧
    ∃ env, Payload.create (Callable.own ⟨7, true⟩) Pool.untouched = (Payload.mined, env) ∧
      (Payload.mined.drop false env).1 = some (.bomb 7) ∧
      (Payload.mined.drop false env).2.ledger?.map Ledger.liveBytes = some 32 :=
  ⟨⟨_, rfl, by decide +kernel, by decide +kernel, by decide +kernel⟩,
    ⟨_, rfl, by decide +kernel, by decide +kernel, by decide +kernel⟩,
    ⟨_, rfl, by decide +kernel, by decide +kernel⟩⟩

end TaskMemory

import TaskMemory.Proofs.Pool.History
import TaskMemory.Proofs.Pool.Simulation
import TaskMemory.Proofs.Pool.Teardown

/-!
From the beginning of a pool to its end. Every value that was put into the pool goes once: by a
destruction, by being taken, or at the end of the pool; and every block that the pool obtained it
has given back by then.
-/
namespace TaskMemory

namespace Pool

variable {α : Type} [Stored α] {p : Pool α} {order : List (Holding α)}

/-- The end of a slab gives its block back and no other one. -/
theorem account_slabTeardown (p : Pool α) (order : List (Holding α)) (k : Nat)
    (held : Multiset Layout) :
    Effect.account (p.slabTeardown order k) (p.slabStorage ::ₘ held) = some held := by
  rw [slabTeardown, Effect.account_append_of_eq_some (Effect.account_drops _ _)]
  simp [Effect.account, Effect.enter]

/-- The slabs give their blocks back one by one. -/
theorem account_slabsTeardown (p : Pool α) (order : List (Holding α)) (slabs : List Nat)
    (held : Multiset Layout) : Effect.account (slabs.flatMap (p.slabTeardown order))
      (Multiset.replicate slabs.length p.slabStorage + held) = some held := by
  induction slabs with
  | nil => simp
  | cons k slabs ih =>
      rw [List.length_cons, Multiset.replicate_succ, Multiset.cons_add, List.flatMap_cons,
        Effect.account_append_of_eq_some (account_slabTeardown p order k _), ih]

/-- The end of a pool gives back all that the pool has. -/
theorem account_teardown (p : Pool α) (order : List (Holding α)) :
    Effect.account (p.teardown order) p.blocks = some 0 := by
  have hSlabs := account_slabsTeardown p order (List.range p.slabCount) p.directoryBlock
  rw [List.length_range] at hSlabs
  rw [teardown, slabsTeardown, blocks, Effect.account_append_of_eq_some hSlabs, directoryBlock]
  split
  · rfl
  · simp [Effect.account, Effect.enter]

/-- What is sorted by a key can be taken apart by it. -/
theorem filter_append_filter {β : Type} (key : β → Nat) {l : List β} {n : Nat}
    (sorted : l.Pairwise fun a b => key a ≤ key b) (h : ∀ a ∈ l, key a ≤ n) :
    l.filter (key · < n) ++ l.filter (key · = n) = l := by
  induction l with
  | nil => rfl
  | cons a l ih =>
      obtain ⟨hFirst, hRest⟩ := List.pairwise_cons.mp sorted
      have hLe := h a List.mem_cons_self
      rcases Nat.lt_or_eq_of_le hLe with hLt | hEq
      · have hNe : key a ≠ n := Nat.ne_of_lt hLt
        have hIh := ih hRest fun b hb => h b (List.mem_cons_of_mem _ hb)
        simpa [hLt, hNe] using hIh
      · have hAll : ∀ b ∈ l, key b = n := fun b hb =>
          Nat.le_antisymm (h b (List.mem_cons_of_mem _ hb)) (hEq ▸ hFirst b hb)
        have hNone : l.filter (key · < n) = [] :=
          List.filter_eq_nil_iff.mpr fun b hb => by simp [hAll b hb]
        have hSome : l.filter (key · = n) = l :=
          List.filter_eq_self.mpr fun b hb => by simp [hAll b hb]
        simp [hEq, hNone, hSome]

/-- Sorted by a key, a list is made of its parts with one key each. -/
theorem flatMap_filter_range {β : Type} (key : β → Nat) {l : List β} {n : Nat}
    (sorted : l.Pairwise fun a b => key a ≤ key b) (h : ∀ a ∈ l, key a < n) :
    (List.range n).flatMap (fun k => l.filter (key · = k)) = l := by
  induction n generalizing l with
  | zero =>
      cases l with
      | nil => rfl
      | cons a l => exact absurd (h a List.mem_cons_self) (Nat.not_lt_zero _)
  | succ n ih =>
      have hLow := ih (l := l.filter (key · < n)) (sorted.filter _) fun a ha => by
        simpa using (List.mem_filter.mp ha).2
      have hSplit := filter_append_filter key sorted fun a ha => Nat.le_of_lt_succ (h a ha)
      have hSame : (List.range n).flatMap (fun k => l.filter (key · = k)) =
          (List.range n).flatMap (fun k => (l.filter (key · < n)).filter (key · = k)) := by
        apply List.flatMap_congr
        intro k hk
        rw [List.filter_filter]
        apply List.filter_congr
        intro a _
        have hLt := List.mem_range.mp hk
        by_cases hKey : key a = k
        · simp [hKey, hLt]
        · simp [hKey]
      rw [List.range_succ, List.flatMap_append, hSame, hLow, List.flatMap_singleton, hSplit]

omit [Stored α] in
/-- What is in the order of its slots comes slab by slab. -/
theorem Ordered.flatMap_slabs (hOrder : p.Ordered order)
    (hWithin : ∀ r ∈ order, (p.place r.handle).slab < p.slabCount) :
    (List.range p.slabCount).flatMap
      (fun k => order.filter fun r => (p.place r.handle).slab = k) = order := by
  have hSorted : order.Pairwise fun r s => (p.place r.handle).slab ≤ (p.place s.handle).slab :=
    hOrder.imp fun hBefore => hBefore.elim Nat.le_of_lt fun h => Nat.le_of_eq h.1
  exact flatMap_filter_range (fun r : Holding α => (p.place r.handle).slab) hSorted hWithin

/-- The end of a pool drops the values that stand in it, in the order of their slots. -/
theorem dropped_teardown (hOrder : p.Ordered order)
    (hWithin : ∀ r ∈ order, (p.place r.handle).slab < p.slabCount) :
    Effect.dropped (p.teardown order) = order.map Holding.value := by
  have hSlab : ∀ k, Effect.dropped (p.slabTeardown order k) =
      (order.filter fun r => (p.place r.handle).slab = k).map Holding.value := by
    intro k
    rw [slabTeardown, Effect.dropped_append, Effect.dropped_drops]
    exact List.append_nil _
  have hDirectory : Effect.dropped (p.directoryBlock.map .giveBack : List (Effect α)) = [] := by
    rw [directoryBlock]
    split <;> rfl
  rw [teardown, slabsTeardown, Effect.dropped_append, hDirectory, List.append_nil]
  calc Effect.dropped ((List.range p.slabCount).flatMap (p.slabTeardown order))
      = (List.range p.slabCount).flatMap fun k => Effect.dropped (p.slabTeardown order k) :=
        List.filterMap_flatMap
    _ = (List.range p.slabCount).flatMap fun k =>
          (order.filter fun r => (p.place r.handle).slab = k).map Holding.value :=
        List.flatMap_congr fun k _ => hSlab k
    _ = order.map Holding.value := by rw [← List.map_flatMap, hOrder.flatMap_slabs hWithin]

theorem blocks_initial {o : PoolOptions} {p : Pool α} (h : Pool.create o = .ok p) :
    (Moment.initial p).pool.blocks = 0 := by
  obtain ⟨codec, _, rfl⟩ := create_eq h
  rfl

/-- What a run and the end of the pool after it come to: the effects of the run, and the values that
stand in the pool at its end. -/
structure Settled (env : Environment) (w : Usage α) (es : List (Effect α))
    (order : List (Holding α)) : Prop where
  run : w.env = Effect.replay es env
  dispose : w.pool.dispose w.env = (none, Effect.replay (w.pool.teardown order) w.env)
  /-- The run drops what was destroyed and what did not get into the pool. -/
  dropped : Effect.dropped es = w.state.book.farewells.filterMap Farewell.dropped?
  /-- The end drops the other values, in the order of their slots. -/
  remaining : order.Perm w.state.book.contents
  ordered : w.pool.Ordered order
  dropped_end : Effect.dropped (w.pool.teardown order) = order.map Holding.value
  /-- Every value that was put into the pool goes once. -/
  once : (w.state.book.gone ++ order.map Holding.birth).Perm (List.range w.state.book.births)
  /-- Every block is given back with the layout it was obtained with. -/
  returned : Effect.account (es ++ w.pool.teardown order) 0 = some 0
  /-- A counting layer around the memory sees as much returned as obtained. A run in which a request
  is refused does not get this far. -/
  balanced : ∀ l inner, env.resource = .counting l inner → Effect.KeepsMemory α →
    Effect.Granted (es ++ w.pool.teardown order) env →
    ∃ l' inner', (w.pool.dispose w.env).2.resource = .counting l' inner' ∧
      l'.allocations + l.deallocations = l'.deallocations + l.allocations ∧
      l'.liveBytes = l.liveBytes

/-- Whatever has run, in whatever nesting: if no drop of a value has ended in a fault, the values
that the pool was given have gone once each when it has ended, and so have the blocks. -/
theorem Program.settles {o : PoolOptions} {p : Pool α} (h : Pool.create o = .ok p)
    (env : Environment) (program : Program α) {w : Usage α}
    (hRun : program.run (Usage.start p env) = w) (hSpent : w.state.book.spent = [])
    (hEnd : (w.pool.dispose w.env).1 = none) : ∃ es order, Settled env w es order := by
  have follows : Follows (Moment.initial p) env [] [] w := hRun ▸ program.follows_initial h env
  have fits := follows.fits (Moment.fits_initial h)
  obtain ⟨es, steps, hEnv⟩ := follows.reached
  obtain ⟨order, hPerm, hOrder⟩ := fits.exists_order
  have hHeld : w.state.book.held = w.state.book.contents := by
    rw [Book.held, follows.closing, hSpent, List.append_nil, List.append_nil]
  have hRemaining : order.Perm w.state.book.contents := hHeld ▸ hPerm
  have hWithin : ∀ r ∈ order, (w.pool.place r.handle).slab < w.pool.slabCount := fun r hr =>
    (fits.housed.tidy.within _ (Moment.mem_sites (hRemaining.mem_iff.mp hr))).1
  have hComplete : w.state.book.Complete := steps.complete (List.Perm.refl [])
  have hDispose := fits.dispose_eq_of_quiet rfl follows.closing hPerm hOrder hEnd
  have hReturned : Effect.account (es ++ w.pool.teardown order) 0 = some 0 := by
    have hAccount := steps.account_eq
    rw [blocks_initial h] at hAccount
    rw [Effect.account_append_of_eq_some hAccount]
    exact account_teardown w.pool order
  refine ⟨es, order, hEnv, hDispose, steps.farewells_eq.symm, hRemaining, hOrder,
    dropped_teardown hOrder hWithin, ?_, hReturned, ?_⟩
  · exact ((hRemaining.map Holding.birth).append_left _).trans hComplete
  · intro l inner hResource keeps granted
    obtain ⟨inner', hFinal⟩ := Effect.counting_replay keeps hResource granted
    rw [Effect.replay_append, ← hEnv] at hFinal
    exact ⟨_, inner', (congrArg (·.2.resource) hDispose).trans hFinal,
      Effect.balanced_of_account_eq_zero hReturned l⟩

/-- The failed construction, the destruction and the end of the pool drop one value each. -/
theorem Program.settles_nested : ∃ w : Usage Tracked,
    nested.run (Usage.start (pair Tracked) untouched) = w ∧ w.state.book.spent = [] ∧
    (w.pool.dispose w.env).1 = none ∧ (w.pool.dispose w.env).2.drops = #[5, 1, 3] ∧
    ((w.pool.dispose w.env).2.ledger?.map fun l => (l.allocations, l.deallocations, l.liveBytes)) =
      some (3, 3, 0) ∧
    ∃ es order, Settled untouched w es order := by
  have hSpent : (nested.run (Usage.start (pair Tracked) untouched)).state.book.spent = [] := by
    decide +kernel
  have hEnd : ((nested.run (Usage.start (pair Tracked) untouched)).pool.dispose
      (nested.run (Usage.start (pair Tracked) untouched)).env).1 = none := by
    decide +kernel
  exact ⟨_, rfl, hSpent, hEnd, by decide +kernel, by decide +kernel,
    Program.settles create_pair untouched nested rfl hSpent hEnd⟩

end Pool
end TaskMemory

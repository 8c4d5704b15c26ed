import TaskMemory.Proofs.Graph.Keeping

/-!
The blocks and the callables of nodes, from the beginning of their pool to its end. At any time the
blocks that are out are those of the pool and those of the nodes that exist. The end of the pool
drops the nodes that are still there, so that nothing is out afterwards but the blocks of nodes that
have been taken out, and the callable of every node that is gone has been run or dropped once.
-/
namespace TaskMemory.Graph

open Pool (Holding Moment)

/-- Without a fault, these effects come to these deeds. -/
def Mirrors (es : List (Effect Node)) (deeds : List Deed) : Prop :=
  ∀ env, (Effect.perform es env).1 = none →
    (Effect.perform es env).2 = Deed.replay deeds env

namespace Mirrors

variable {es fs : List (Effect Node)} {deeds more : List Deed}

theorem append (first : Mirrors es deeds) (second : Mirrors fs more) :
    Mirrors (es ++ fs) (deeds ++ more) := by
  intro env hQuiet
  rw [Effect.perform_append] at hQuiet ⊢
  rw [Deed.replay_append]
  have hFirst := first env
  rcases hPerform : Effect.perform es env with ⟨_ | fault, env'⟩
  · rw [hPerform] at hFirst hQuiet
    rw [← hFirst rfl]
    exact second env' hQuiet
  · rw [hPerform] at hQuiet
    cases hQuiet

theorem flatMap {β : Type} {f : β → List (Effect Node)} {g : β → List Deed}
    (h : ∀ b, Mirrors (f b) (g b)) (l : List β) : Mirrors (l.flatMap f) (l.flatMap g) := by
  induction l with
  | nil => exact fun _ _ => rfl
  | cons b l ih =>
      rw [List.flatMap_cons, List.flatMap_cons]
      exact (h b).append ih

/-- The drop of a node in the pool is its burial. -/
theorem drop (r : Holding Node) :
    Mirrors (Effect.drop false r.value) (r.value.burial r.birth) := by
  intro env hQuiet
  rw [Effect.perform_drop] at hQuiet ⊢
  exact Node.drop_eq hQuiet r.birth

theorem giveBack (block : Layout) : Mirrors [.giveBack block] [.giveBack .pool block] :=
  fun _ _ => rfl

end Mirrors

section Ending

variable {designs : List Design} {p : Pool Node} {order nodes : List (Holding Node)}
  {deeds : List Deed} {held : Multiset Layout}

/-- What the end of a pool does to the slab at an index, when these nodes are in the pool. -/
def slabBurial (p : Pool Node) (order : List (Holding Node)) (k : Nat) : List Deed :=
  (order.filter fun r => (p.place r.handle).slab = k).flatMap (fun r => r.value.burial r.birth) ++
    [.giveBack .pool p.slabStorage]

/-- The end of a slab buries the nodes in it and gives its block back. -/
theorem mirrors_slabTeardown (p : Pool Node) (order : List (Holding Node)) (k : Nat) :
    Mirrors (p.slabTeardown order k) (slabBurial p order k) := by
  rw [Pool.slabTeardown, Effect.drops, List.flatMap_map]
  exact (Mirrors.flatMap Mirrors.drop _).append (Mirrors.giveBack _)

/-- A slab goes with the nodes in it. -/
theorem Balance.slabBurial {k : Nat} (balance : Balance designs (p.slabStorage ::ₘ held)
      (order.filter (fun r => (p.place r.handle).slab = k) ++ nodes) deeds) :
    Balance designs held nodes (deeds ++ slabBurial p order k) := by
  rw [Graph.slabBurial, ← List.append_assoc]
  have hGiveBack : Effect.account [(.giveBack p.slabStorage : Effect Node)]
      (p.slabStorage ::ₘ held) = some held := by
    simp [Effect.account, Effect.enter]
  exact balance.buryAll.aside hGiveBack

/-- The slabs go one after the other. -/
theorem Balance.slabBurials {slabs : List Nat} (balance : Balance designs
      (Multiset.replicate slabs.length p.slabStorage + held)
      (slabs.flatMap (fun k => order.filter fun r => (p.place r.handle).slab = k) ++ nodes) deeds) :
    Balance designs held nodes (deeds ++ slabs.flatMap (Graph.slabBurial p order)) := by
  induction slabs generalizing deeds with
  | nil => simpa using balance
  | cons k slabs ih =>
      rw [List.length_cons, Multiset.replicate_succ, Multiset.cons_add, List.flatMap_cons,
        List.append_assoc] at balance
      rw [List.flatMap_cons, ← List.append_assoc]
      exact ih balance.slabBurial

/-- What the end of a pool does, when these nodes are in the pool. -/
def burial (p : Pool Node) (order : List (Holding Node)) : List Deed :=
  (List.range p.slabCount).flatMap (slabBurial p order) ++
    (p.directoryBlock.map Effect.giveBack : List (Effect Node)).flatMap Deed.ofPool

/-- When all nodes in the pool are buried and its blocks given back, the blocks of the other nodes
remain. -/
theorem Balance.burial (balance : Balance designs p.blocks (order ++ nodes) deeds)
    (hOrder : p.Ordered order)
    (hWithin : ∀ r ∈ order, (p.place r.handle).slab < p.slabCount) :
    Balance designs 0 nodes (deeds ++ burial p order) := by
  have hDirectory : Effect.account (p.directoryBlock.map .giveBack : List (Effect Node))
      p.directoryBlock = some 0 := by
    rw [Pool.directoryBlock]
    split
    · rfl
    · simp [Effect.account, Effect.enter]
  have hBlocks : p.blocks = Multiset.replicate (List.range p.slabCount).length p.slabStorage +
      p.directoryBlock := by
    rw [List.length_range, Pool.blocks]
  rw [← hOrder.flatMap_slabs hWithin, hBlocks] at balance
  rw [Graph.burial, ← List.append_assoc]
  exact balance.slabBurials.aside hDirectory

/-- The end of a pool drops the nodes in it and gives its blocks back. -/
theorem dispose_eq {residents : List (Holding Node)}
    (fits : (⟨p, { contents := residents }, []⟩ : Moment Node).Fits)
    (hPerm : order.Perm residents) (hOrder : p.Ordered order) {env : Environment}
    (hQuiet : (p.dispose env).1 = none) :
    p.dispose env = (none, Deed.replay (burial p order) env) := by
  have hHeld : order.Perm (Pool.Book.held { contents := residents }) := by
    simpa [Pool.Book.held] using hPerm
  have hDispose : p.dispose env = _ := fits.dispose_eq rfl rfl hHeld hOrder env
  have hSlabs := Mirrors.flatMap (mirrors_slabTeardown p order) (List.range p.slabCount) env
  have hPlain : ∀ e ∈ (p.directoryBlock.map .giveBack : List (Effect Node)),
      Deed.ofPool e ≠ [] := by
    simp [Deed.ofPool]
  rw [hDispose] at hQuiet ⊢
  rw [burial, Deed.replay_append, ← hSlabs hQuiet, Deed.replay_ofPool hPlain,
    ← Pool.release_directory_eq]
  exact Prod.ext hQuiet rfl

end Ending

/-- What the deeds since a first environment say about a pool of nodes and its client. -/
structure Standing (env₀ : Environment) (designs : List Design) (w : Estate) (deeds : List Deed) :
    Prop where
  env : w.env = Deed.replay deeds env₀
  /-- The nodes that the client knows to be in the pool are there, and no others. -/
  inside : ∀ r ∈ w.state.residents, w.get? r.handle = .ok (some r.value)
  count : w.pool.live.toNat = w.state.residents.length
  /-- For every node its blocks are obtained and given back and its callable is used up in order. -/
  lives : Lives designs w.state.nodes deeds
  /-- The blocks that are out. -/
  account : Deed.account deeds 0 = some (w.pool.blocks + blocksOf w.state.nodes)
  /-- The bytes that are out, as a counting layer around the memory has them. A run in which a
  request is refused does not get this far. -/
  liveBytes : ∀ l inner, env₀.resource = .counting l inner → Deed.Undisturbed deeds env₀ →
    ∃ l' inner', w.env.resource = .counting l' inner' ∧ l'.liveBytes =
      l.liveBytes + (w.pool.blocks.map Layout.size).sum + bytesOf w.state.nodes

/-- What all deeds up to the end of a pool of nodes come to. -/
structure Ended (env₀ : Environment) (designs : List Design) (w : Estate) (deeds : List Deed) :
    Prop where
  dispose : w.pool.dispose w.env = (none, Deed.replay deeds env₀)
  /-- Only nodes that have been taken out still exist. -/
  lives : Lives designs w.state.taken deeds
  account : Deed.account deeds 0 = some (blocksOf w.state.taken)
  /-- Every other callable has been run or dropped, once. -/
  consumed : ∀ k < designs.length, k ∉ w.state.taken.map Holding.birth →
    deeds.countP (Deed.consumes k) = 1
  liveBytes : ∀ l inner, env₀.resource = .counting l inner → Deed.Undisturbed deeds env₀ →
    ∃ l' inner', (w.pool.dispose w.env).2.resource = .counting l' inner' ∧
      l'.liveBytes = l.liveBytes + bytesOf w.state.taken ∧
      (w.state.taken = [] → l'.allocations + l.deallocations = l'.deallocations + l.allocations)

/-- The callable of a node that is gone has been used up, once. -/
theorem Lives.consumed {designs : List Design} {nodes : List (Holding Node)} {deeds : List Deed}
    (lives : Lives designs nodes deeds) {k : Nat} (hLt : k < designs.length)
    (hGone : k ∉ nodes.map Holding.birth) : deeds.countP (Deed.consumes k) = 1 := by
  obtain ⟨n, -, hDeeds⟩ := lives.gone k designs[k] (List.getElem?_eq_getElem hLt) hGone
  rw [← Deed.countP_consumes_of, hDeeds]
  exact n.countP_consumes_life k

variable {env₀ : Environment} {designs : List Design} {w : Estate} {deeds : List Deed}

/-- What the books say at any time. -/
theorem Kept.standing (kept : Kept env₀ designs w deeds) : Standing env₀ designs w deeds where
  env := kept.env
  inside r hr := kept.get?_eq hr
  count := kept.fits.live.trans (by simp [Pool.Book.seats])
  lives := kept.balance.lives
  account := kept.balance.account
  liveBytes l inner hEnv undisturbed := by
    obtain ⟨l', inner', hReplay, tallies⟩ :=
      Deed.tallies_replay hEnv undisturbed kept.balance.account
    refine ⟨l', inner', (congrArg _ kept.env).trans hReplay, ?_⟩
    rw [tallies.bytes, Multiset.map_add, Multiset.sum_add, sum_blocksOf, Nat.add_assoc]

/-- What the books say after the end of the pool. -/
theorem Kept.ended (kept : Kept env₀ designs w deeds) (hEnd : (w.pool.dispose w.env).1 = none) :
    ∃ last, Ended env₀ designs w (deeds ++ last) := by
  obtain ⟨order, hHeld, hOrder⟩ := kept.fits.exists_order
  have hPerm : order.Perm w.state.residents := by simpa [Pool.Book.held] using hHeld
  have hWithin : ∀ r ∈ order, (w.pool.place r.handle).slab < w.pool.slabCount := fun r hr =>
    (kept.fits.housed.tidy.within _ (Moment.mem_sites (hPerm.mem_iff.mp hr))).1
  have hDispose := dispose_eq kept.fits hPerm hOrder hEnd
  rw [kept.env, ← Deed.replay_append] at hDispose
  have closed := (kept.balance.perm (hPerm.symm.append_right _)).burial hOrder hWithin
  have hAccount := closed.account
  rw [zero_add] at hAccount
  refine ⟨burial w.pool order, ?_, closed.lives, hAccount, fun k => closed.lives.consumed, ?_⟩
  · rw [kept.env]
    exact hDispose
  · intro l inner hEnv undisturbed
    obtain ⟨l', inner', hReplay, tallies⟩ := Deed.tallies_replay hEnv undisturbed hAccount
    refine ⟨l', inner', ?_, tallies.bytes.trans (by rw [sum_blocksOf]), ?_⟩
    · rw [kept.env, hDispose]
      exact hReplay
    · intro hTaken
      have hBlocks := tallies.blocks
      rw [hTaken] at hBlocks
      simpa [blocksOf] using hBlocks

/-- Whatever is done with nodes: if no drop of a node ends in a fault, the blocks that are out are
those of the pool and of the nodes that exist, and at the end of the pool all has been given back
but the blocks of nodes that have been taken out. -/
theorem Estate.keeps_nodes {o : PoolOptions} {p : Pool Node} (h : Pool.create o = .ok p)
    (env : Environment) (orders : List Order) {w : Estate}
    (hServe : Estate.serveAll ⟨p, env, {}⟩ orders = w) (hQuiet : w.state.broken = []) :
    ∃ deeds, Standing env (orders.filterMap Order.design?) w deeds ∧
      ((w.pool.dispose w.env).1 = none →
        ∃ last, Ended env (orders.filterMap Order.design?) w (deeds ++ last)) := by
  subst hServe
  obtain ⟨deeds, kept⟩ := (kept_initial h env).serveAll hQuiet
  exact ⟨deeds, kept.standing, kept.ended⟩

/-- Memory that grants every request, under a counting layer. -/
def plenty : Environment := { resource := (Resource.ofPolicy fun _ _ _ => true).counted }

/-- Three nodes are built, and one more after two of them have gone. One of these is destroyed after
its run ended in a fault, the other one is taken out and run there before it is dropped. -/
def errands : List Order :=
  [.build 0 1 ⟨.own ⟨3, false⟩, []⟩, .build 0 2 ⟨.idle, [⟨0⟩]⟩,
    .build 0 0 ⟨.fail "broken", [⟨0⟩, ⟨1⟩]⟩, .run (.inside ⟨2⟩), .notify (.inside ⟨2⟩),
    .destroy ⟨2⟩, .take ⟨1⟩, .run (.outside 1), .discard 1, .build 0 0 ⟨.own ⟨5, false⟩, [⟨0⟩]⟩]

theorem spares_errands : ∀ d ∈ errands.filterMap Order.design?, SparesMemory d.work := by
  simp only [errands, Order.design?, List.filterMap_cons, List.filterMap_nil, List.forall_mem_cons]
  refine ⟨⟨fun _ => rfl, fun _ => rfl⟩, ⟨fun _ => rfl, fun _ => rfl⟩, ⟨fun _ => rfl, fun _ => rfl⟩,
    ⟨fun _ => rfl, fun _ => rfl⟩, nofun⟩

/-- Two nodes are there until the end of the pool. After it nothing is out. -/
theorem Estate.keeps_nodes_errands : ∃ w : Estate,
    Estate.serveAll ⟨Pool.pair Node, plenty, {}⟩ errands = w ∧ w.state.broken = [] ∧
    w.state.taken = [] ∧ w.state.residents.map Holding.birth = [0, 3] ∧
    (w.env.ledger?.map fun l => (l.allocations, l.deallocations, l.liveBytes)) =
      some (10, 4, 420) ∧
    (w.pool.dispose w.env).1 = none ∧ (w.pool.dispose w.env).2.drops = #[3, 5] ∧
    ∃ deeds, Ended plenty (errands.filterMap Order.design?) w deeds ∧
      ∃ l inner, (w.pool.dispose w.env).2.resource = .counting l inner ∧ l.liveBytes = 0 ∧
        l.allocations = l.deallocations := by
  have hQuiet : (Estate.serveAll ⟨Pool.pair Node, plenty, {}⟩ errands).state.broken = [] := by
    decide +kernel
  have hTaken : (Estate.serveAll ⟨Pool.pair Node, plenty, {}⟩ errands).state.taken = [] :=
    List.isEmpty_iff.mp (by decide +kernel)
  have hEnd : ((Estate.serveAll ⟨Pool.pair Node, plenty, {}⟩ errands).pool.dispose
      (Estate.serveAll ⟨Pool.pair Node, plenty, {}⟩ errands).env).1 = none := by
    decide +kernel
  obtain ⟨deeds, -, hEnded⟩ := Estate.keeps_nodes Pool.create_pair plenty errands rfl hQuiet
  obtain ⟨last, ended⟩ := hEnded hEnd
  have undisturbed : Deed.Undisturbed (deeds ++ last) plenty :=
    Deed.undisturbed_of_spares (fun _ _ _ => rfl) fun d hd c hWork => by
      obtain ⟨design, hDesign, rfl⟩ := ended.lives.work_mem hd hWork
      exact spares_errands design hDesign
  obtain ⟨l, inner, hResource, hBytes, hBlocks⟩ := ended.liveBytes {} _ rfl undisturbed
  refine ⟨_, rfl, hQuiet, hTaken, by decide +kernel, by decide +kernel, hEnd, by decide +kernel,
    deeds ++ last, ended, l, inner, hResource, ?_, ?_⟩
  · rw [hTaken] at hBytes
    exact hBytes
  · simpa using hBlocks hTaken

end TaskMemory.Graph

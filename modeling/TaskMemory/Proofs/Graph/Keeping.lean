import TaskMemory.Proofs.Graph.Estate
import TaskMemory.Proofs.Pool.Acquisition
import TaskMemory.Proofs.Pool.Alone
import TaskMemory.Proofs.Pool.Commuting
import TaskMemory.Proofs.Pool.Disposal

/-!
What every order keeps. `Kept` says that the environment is what the deeds so far have made of it,
that these are the lives of all nodes, and that the blocks that are out are those of the pool and of
the nodes that exist. Every order keeps this, unless a drop ends in a fault.
-/
namespace TaskMemory

namespace Pool

open TaskMemory.Graph (Deed)

variable {α σ : Type} [Stored α] {p : Pool α} {b b' : Book α} {claims : List Place}
  {site : Place} {r : Holding α} {v : α}

/-- How a pool is does not depend on the numbers in the book nor on what is gone. -/
theorem Moment.Fits.congr (fits : (⟨p, b, claims⟩ : Moment α).Fits)
    (hSeats : ∀ place, b'.seats place = b.seats place) (hInits : b'.inits = b.inits) :
    (⟨p, b', claims⟩ : Moment α).Fits := by
  have hAll : (⟨p, b', claims⟩ : Moment α).seats = (⟨p, b, claims⟩ : Moment α).seats :=
    congrArg (_ ++ ·) (hSeats p.place)
  refine ⟨fits.packs, fits.within, hAll ▸ fits.housed, ?_, fits.inits.trans hInits.symm⟩
  have hLive := fits.live
  exact hLive.trans (congrArg List.length (hSeats p.place).symm)

/-- A value has been put into a slot that was claimed. -/
theorem Moment.Fits.publish {contents : List (Holding α)}
    (fits : (⟨p, { contents, inits := 1 }, [site]⟩ : Moment α).Fits) (k : Nat) (v : α) :
    (⟨p.publish site v, { contents := contents ++ [⟨p.handle site, k, v⟩] }, []⟩ :
      Moment α).Fits := by
  have published := (Step.publish v).fits fits
  exact published.congr (fun place => by simp [Book.seats, Book.leave, Book.lodge]) rfl

omit [Stored α] in
/-- Room in the directory is made without a drop of a value. -/
theorem ofPool_growth (p : Pool α) :
    ∀ e ∈ (p.growth : List (Effect α)), Deed.ofPool e ≠ [] := by
  rw [growth, directoryBlock]
  split
  · split <;> simp [Deed.ofPool]
  · simp

/-- What comes of the insertion of a value: it gets a slot, or it is dropped for want of one, or its
drop ends in a fault. -/
theorem Moment.Fits.insert_cases {w : Host α σ} {contents : List (Holding α)}
    (fits : (⟨w.pool, { contents }, []⟩ : Moment α).Fits) (k : Nat) (v : α) :
    (∃ h, ∃ pool : Pool α, ∃ es : List (Effect α),
      w.insert v = (.ok h, { w with pool, env := Effect.replay es w.env }) ∧
      (⟨pool, { contents := contents ++ [⟨h, k, v⟩] }, []⟩ : Moment α).Fits ∧
      Effect.account es w.pool.blocks = some pool.blocks ∧ ∀ e ∈ es, Deed.ofPool e ≠ []) ∨
    (∃ event cause, (Stored.drop false v (w.env.raise event)).1 = none ∧
      w.insert v = (.error (.noSlot cause),
        { w with env := (Stored.drop false v (w.env.raise event)).2.2 })) ∨
    ∃ fault, (w.insert v).1 = .error (.fault fault) := by
  rw [Host.insert_eq]
  cases hVacancy : w.pool.vacancy? with
  | some site =>
      have claimed := (Step.claim hVacancy).fits fits
      have hHoused : w.pool.Housed _ := fits.housed
      have hCount := (slabCount_publish v (w.pool.mapSlab site.slab Slab.unlink) site).trans
        (slabCount_mapSlab ..)
      rw [Host.acquire_of_vacancy Host.idle hHoused hVacancy]
      refine Or.inl ⟨_, _, [.raise (.constructed ..)], rfl, claimed.publish k v, ?_, ?_⟩
      · exact congrArg some (blocks_congr hCount rfl rfl).symm
      · simp [Deed.ofPool]
  | none =>
      cases hAt : w.pool.atLimit with
      | true =>
          rw [Host.acquire_of_atLimit Host.idle hVacancy hAt]
          dsimp only [Host.lodge, Refusal.isFault]
          rcases hDrop : Stored.drop false v (w.env.raise
            (.poolExhausted w.pool.codec.maxSlabs)) with ⟨_ | fault, rest, env⟩
          · refine Or.inr (Or.inl ⟨_, w.pool.exhausted, congrArg Prod.fst hDrop, ?_⟩)
            rw [hDrop]
          · exact Or.inr (Or.inr ⟨fault, rfl⟩)
      | false =>
          have grown := (Step.append hVacancy hAt).fits fits
          let site : Place := ⟨w.pool.slabCount, 0⟩
          have hCount := slabCount_publish v w.pool.append site
          rw [Host.acquire_of_room Host.idle hVacancy hAt rfl,
            extend_of_room hVacancy hAt]
          refine Or.inl ⟨_, _, .obtain w.pool.slabStorage :: w.pool.growth ++
            [.raise w.pool.slabCreated, .raise (.constructed site.slab.toUInt32
              site.offset.toUInt32 (w.pool.append.handle site))], ?_, grown.publish k v, ?_, ?_⟩
          · rw [Effect.replay_append]
            rfl
          · rw [Effect.account_append_of_eq_some (account_append _)]
            exact congrArg some (blocks_congr hCount rfl rfl).symm
          · intro e he
            rcases List.mem_append.mp he with he | he
            · rcases List.mem_cons.mp he with rfl | he
              · simp [Deed.ofPool]
              · exact ofPool_growth w.pool e he
            · rcases List.mem_pair.mp he with rfl | rfl <;> simp [Deed.ofPool]

/-- A removal leaves the slot of its value free, unless the drop ends in a fault. -/
theorem Moment.Fits.remove_eq {w : Host α σ} (fits : (⟨w.pool, b, claims⟩ : Moment α).Fits)
    (hMem : r ∈ b.contents) (hQuiet : (w.remove r.handle).1 = .ok ()) :
    (Stored.drop false r.value w.env).1 = none ∧
    w.remove r.handle = (.ok (), { w with
      pool := (w.pool.update (w.pool.place r.handle) Slot.retire).recycled (w.pool.place r.handle)
      env := (Stored.drop false r.value w.env).2.2 }) := by
  have hFront := fits.housed.front (Book.seats_perm w.pool.place (fits.find?_eq hMem))
  rw [Traffic.remove_eq hFront] at hQuiet ⊢
  rcases hDrop : Stored.endDrop false r.value (Stored.beginDrop r.value w.env) with
    ⟨_ | fault, rest, env⟩
  · simp only [Stored.drop, hDrop, true_and]
  · rw [hDrop] at hQuiet
    cases hQuiet

/-- What is left of the pool when a value is removed. -/
theorem Moment.Fits.removed {contents : List (Holding α)}
    (fits : (⟨p, { contents }, []⟩ : Moment α).Fits) (hMem : r ∈ contents) :
    (⟨(p.update (p.place r.handle) Slot.retire).recycled (p.place r.handle),
      { contents := contents.eraseP (·.handle = r.handle) }, []⟩ : Moment α).Fits := by
  have closed := (Step.close (fits.find?_eq hMem)).fits fits
  have settled := (Step.settle rfl).fits closed
  exact settled.congr (fun _ => rfl) rfl

end Pool

namespace Graph

open Pool (Holding Moment Book)

/-- The deeds since a first environment account for an estate. -/
structure Kept (env₀ : Environment) (designs : List Design) (w : Estate) (deeds : List Deed) :
    Prop where
  fits : (⟨w.pool, { contents := w.state.residents }, []⟩ : Moment Node).Fits
  env : w.env = Deed.replay deeds env₀
  balance : Balance designs w.pool.blocks w.state.nodes deeds
  built : w.state.built = designs.length

section Keeping

variable {env₀ : Environment} {designs : List Design} {w : Estate} {deeds : List Deed}
  {n n' : Node} {target : Target} {h : Handle}

theorem Estate.resident_of_some {r : Holding Node} (h' : w.resident? h = some r) :
    r.handle = h ∧ r ∈ w.state.residents ∧
      w.state.residents.Perm (r :: w.state.residents.eraseP (·.handle = h)) :=
  have hFind := perm_of_find? h'
  ⟨of_decide_eq_true hFind.1, List.mem_of_find?_eq_some h', hFind.2⟩

theorem Estate.taken_of_some {r : Holding Node} {k : Nat} (h' : w.taken? k = some r) :
    w.state.taken.Perm (r :: w.state.taken.eraseP (·.birth = k)) :=
  (perm_of_find? h').2

/-- The pool has the node that the client knows to be there. -/
theorem Kept.get?_eq (kept : Kept env₀ designs w deeds) {r : Holding Node}
    (hMem : r ∈ w.state.residents) : w.get? r.handle = .ok (some r.value) :=
  kept.fits.get?_eq hMem

/-- A node that exists is changed, and something is done for it. -/
theorem Kept.rework (kept : Kept env₀ designs w deeds) {w' : Estate} {r : Holding Node}
    {rest : List (Holding Node)} {more : Nat → List Deed} (becomes : Becomes r.value n' more)
    (hBefore : w.state.nodes.Perm (r :: rest))
    (hAfter : w'.state.nodes.Perm ({ r with value := n' } :: rest))
    (fits : (⟨w'.pool, { contents := w'.state.residents }, []⟩ : Moment Node).Fits)
    (hPool : w'.pool.blocks = w.pool.blocks) (hBuilt : w'.state.built = w.state.built)
    (hEnv : w'.env = Deed.replay (more r.birth) w.env) :
    Kept env₀ designs w' (deeds ++ more r.birth) where
  fits := fits
  env := by rw [hEnv, kept.env, Deed.replay_append]
  balance := hPool ▸ ((kept.balance.perm hBefore).rework becomes).perm hAfter.symm
  built := hBuilt.trans kept.built

/-- What is done to one node is done to the node of a target. -/
theorem Kept.put (kept : Kept env₀ designs w deeds) (hNode : w.node? target = some n)
    {more : Nat → List Deed} (becomes : Becomes n n' more) {env : Environment}
    (hEnv : ∀ k, env = Deed.replay (more k) w.env) :
    ∃ k, Kept env₀ designs (Estate.put target n' { w with env }) (deeds ++ more k) := by
  cases target with
  | inside h =>
      obtain ⟨r, hFind, hGet⟩ := Option.bind_eq_some_iff.mp hNode
      obtain ⟨rfl, hMem, hPerm⟩ := Estate.resident_of_some hFind
      rw [kept.get?_eq hMem] at hGet
      obtain rfl : r.value = n := Option.some.inj hGet
      have hFind' : Estate.resident? r.handle { w with env } = some r := hFind
      have edited := (Pool.Step.edit (kept.fits.find?_eq hMem) n').fits kept.fits
      refine ⟨r.birth, ?_⟩
      simp only [Estate.put, hFind']
      exact kept.rework becomes (hPerm.append_right _)
        ((List.perm_append_singleton _ _).append_right _) edited
        (Pool.blocks_congr (Pool.slabCount_update ..) rfl rfl) rfl (hEnv _)
  | outside k =>
      obtain ⟨r, hFind, rfl⟩ := Option.map_eq_some_iff.mp hNode
      have hPerm := Estate.taken_of_some hFind
      have hFind' : Estate.taken? k { w with env } = some r := hFind
      refine ⟨r.birth, ?_⟩
      simp only [Estate.put, hFind']
      exact kept.rework becomes ((hPerm.append_left _).trans List.perm_middle)
        (((List.perm_append_singleton _ _).append_left _).trans List.perm_middle) kept.fits rfl rfl
        (hEnv _)

/-- An order that does nothing keeps the books. -/
theorem Kept.unchanged (kept : Kept env₀ designs w deeds) :
    ∃ more, Kept env₀ designs w (deeds ++ more) :=
  ⟨[], by rwa [List.append_nil]⟩

/-- A run is entered for the node that it is a run of. -/
theorem Kept.run (kept : Kept env₀ designs w deeds) (target : Target) :
    ∃ more, Kept env₀ designs (w.run target) (deeds ++ more) := by
  rw [Estate.run]
  cases hNode : w.node? target with
  | none => exact kept.unchanged
  | some n =>
      have hRun : (n.run w.env).2.1 = { n with payload.spent := true } := (n.run_eq w.env 0).1
      obtain ⟨k, ran⟩ := kept.put hNode (hRun ▸ becomes_run n) fun k => (n.run_eq w.env k).2
      exact ⟨_, ran⟩

/-- A decrement is not entered anywhere. -/
theorem Kept.decrement (kept : Kept env₀ designs w deeds) (target : Target) :
    Kept env₀ designs (w.decrement target).2 deeds := by
  cases hNode : w.node? target with
  | none => simpa only [Estate.decrement, hNode] using kept
  | some n =>
      have hEnv : ∀ _ : Nat, w.env = Deed.replay [] w.env := fun _ => rfl
      obtain ⟨k, lowered⟩ := kept.put hNode (becomes_decrement n) hEnv
      rw [List.append_nil] at lowered
      simpa only [Estate.decrement, hNode] using lowered

/-- A notification is made of decrements, so it is not entered either. -/
theorem Kept.notify (kept : Kept env₀ designs w deeds) (handles : List Handle) :
    Kept env₀ designs (Node.notify (fun h => Estate.decrement (.inside h)) (fun _ w => w) handles
      w).2 deeds :=
  Node.notify_keeps (P := (Kept env₀ designs · deeds)) (fun h _ kept => kept.decrement (.inside h))
    (fun _ _ => id) handles kept

/-- A node that exists is dropped. -/
theorem Kept.bury (kept : Kept env₀ designs w deeds) {w' : Estate} {r : Holding Node}
    (hNodes : w.state.nodes.Perm (r :: w'.state.nodes))
    (fits : (⟨w'.pool, { contents := w'.state.residents }, []⟩ : Moment Node).Fits)
    (hPool : w'.pool.blocks = w.pool.blocks) (hBuilt : w'.state.built = w.state.built)
    (hEnv : w'.env = Deed.replay (r.value.burial r.birth) w.env) :
    Kept env₀ designs w' (deeds ++ r.value.burial r.birth) where
  fits := fits
  env := by rw [hEnv, kept.env, Deed.replay_append]
  balance := hPool ▸ (kept.balance.perm hNodes).bury
  built := hBuilt.trans kept.built

/-- A destruction is entered as the burial of its node. -/
theorem Kept.destroy (kept : Kept env₀ designs w deeds) (h : Handle)
    (hQuiet : (w.destroy h).state.broken = []) :
    ∃ more, Kept env₀ designs (w.destroy h) (deeds ++ more) := by
  rw [Estate.destroy] at hQuiet ⊢
  cases hFind : w.resident? h with
  | none => exact kept.unchanged
  | some r =>
      obtain ⟨rfl, hMem, hPerm⟩ := Estate.resident_of_some hFind
      rw [hFind] at hQuiet
      rcases hRemove : w.remove r.handle with ⟨fault | _, w'⟩
      · rw [hRemove] at hQuiet
        exact absurd hQuiet (List.append_ne_nil_of_right_ne_nil _ (List.cons_ne_nil _ _))
      · obtain ⟨hDrop, hRemoved⟩ := kept.fits.remove_eq hMem (congrArg Prod.fst hRemove)
        obtain rfl := congrArg Prod.snd (hRemove.symm.trans hRemoved)
        have hPool : ((w.pool.update (w.pool.place r.handle) Slot.retire).recycled
            (w.pool.place r.handle)).blocks = w.pool.blocks :=
          Pool.blocks_congr ((Pool.slabCount_reclaim ..).trans (Pool.slabCount_update ..)) rfl rfl
        exact ⟨_, kept.bury (r := r) (hPerm.append_right _) (kept.fits.removed hMem) hPool rfl
          (Node.drop_eq hDrop r.birth)⟩

/-- The drop of a node that had been taken out is entered as its burial. -/
theorem Kept.discard (kept : Kept env₀ designs w deeds) (k : Nat)
    (hQuiet : (w.discard k).state.broken = []) :
    ∃ more, Kept env₀ designs (w.discard k) (deeds ++ more) := by
  rw [Estate.discard] at hQuiet ⊢
  cases hFind : w.taken? k with
  | none => exact kept.unchanged
  | some r =>
      have hPerm := Estate.taken_of_some hFind
      rw [hFind] at hQuiet
      have hDrop : (Stored.drop false r.value w.env).1 = none :=
        Option.toList_eq_nil_iff.mp (List.append_eq_nil_iff.mp hQuiet).2
      exact ⟨_, kept.bury (r := r) ((hPerm.append_left _).trans List.perm_middle) kept.fits rfl rfl
        (Node.drop_eq hDrop r.birth)⟩

/-- A node that is taken out of the pool goes on to exist. -/
theorem Kept.take (kept : Kept env₀ designs w deeds) (h : Handle) :
    Kept env₀ designs (w.take h) deeds := by
  rw [Estate.take]
  cases hFind : w.resident? h with
  | none => exact kept
  | some r =>
      obtain ⟨rfl, hMem, hPerm⟩ := Estate.resident_of_some hFind
      have taken := (Pool.Step.take (kept.fits.find?_eq hMem)).fits kept.fits
      have hNodes : (w.state.residents.eraseP (·.handle = r.handle) ++
          (w.state.taken ++ [r])).Perm w.state.nodes := by
        rw [← List.append_assoc]
        exact (List.perm_append_singleton _ _).trans (hPerm.append_right _).symm
      rw [kept.fits.take_eq hMem]
      exact {
        fits := taken.congr (fun _ => rfl) rfl
        env := kept.env
        balance := by
          have hPool : ((w.pool.recycled (w.pool.place r.handle)).update (w.pool.place r.handle)
              Slot.retire).blocks = w.pool.blocks :=
            Pool.blocks_congr ((Pool.slabCount_update ..).trans (Pool.slabCount_reclaim ..)) rfl rfl
          exact hPool ▸ kept.balance.perm hNodes.symm
        built := kept.built }

/-- A node is built and put into a slot of the pool. -/
theorem Kept.lodge (kept : Kept env₀ designs w deeds) {d : Design} {pool : Pool Node}
    {env : Environment} {es : List (Effect Node)} (hFits : d.Fits n)
    (hFresh : n.payload.spent = false)
    (fits : (⟨pool, { contents := w.state.residents ++ [⟨h, w.state.built, n⟩] }, []⟩ :
      Moment Node).Fits)
    (hPool : Effect.account es w.pool.blocks = some pool.blocks)
    (hEnv : env = Deed.replay (es.flatMap Deed.ofPool)
      (Deed.replay (n.birth designs.length) w.env)) :
    Kept env₀ (designs ++ [d]) (Estate.enroll n (.ok h, { w with pool, env }))
      (deeds ++ (n.birth designs.length ++ es.flatMap Deed.ofPool)) := by
  rw [← List.append_assoc]
  have hNodes : (w.state.residents ++ [(⟨h, w.state.built, n⟩ : Holding Node)] ++
      w.state.taken).Perm (⟨h, designs.length, n⟩ :: w.state.nodes) :=
    kept.built ▸ (List.perm_append_singleton _ _).append_right _
  constructor
  case fits => exact fits
  case env =>
    rw [Deed.replay_append, Deed.replay_append, ← kept.env]
    exact hEnv
  case balance => exact ((kept.balance.build hFits hFresh h).aside hPool).perm hNodes.symm
  case built =>
    rw [List.length_append, List.length_singleton, ← kept.built]
    rfl

/-- A node is built and dropped, since the pool is full. -/
theorem Kept.refuse (kept : Kept env₀ designs w deeds) {d : Design} {env : Environment}
    {event : Event} {cause : PoolError} (hFits : d.Fits n) (hFresh : n.payload.spent = false)
    (hEnv : env = Deed.replay (n.burial designs.length)
      ((Deed.replay (n.birth designs.length) w.env).raise event)) :
    Kept env₀ (designs ++ [d]) (Estate.enroll n (.error (.noSlot cause), { w with env }))
      (deeds ++ (n.birth designs.length ++ ([.raise event] ++ n.burial designs.length))) := by
  rw [← List.append_assoc, ← List.append_assoc]
  constructor
  case fits => exact kept.fits
  case env =>
    rw [Deed.replay_append, Deed.replay_append, Deed.replay_append, ← kept.env]
    exact hEnv
  case balance =>
    have hRaise : Effect.account [(.raise event : Effect Node)] w.pool.blocks =
        some w.pool.blocks := rfl
    exact ((kept.balance.build hFits hFresh default).aside hRaise).bury
  case built =>
    rw [List.length_append, List.length_singleton, ← kept.built]
    rfl

/-- A construction is entered as the birth of a node. If there is no slot for it, its burial follows
at once. -/
theorem Kept.build (kept : Kept env₀ designs w deeds) (graph waitCount : UInt32) (d : Design)
    (hQuiet : (w.build graph waitCount d).state.broken = []) :
    ∃ more, Kept env₀ (designs ++ [d]) (w.build graph waitCount d) (deeds ++ more) := by
  rw [Estate.build, Node.create_eq _ _ _ _ _ designs.length] at hQuiet ⊢
  dsimp only at hQuiet ⊢
  generalize hNode : (⟨graph, waitCount, { callable := d.work }, ⟨d.successors⟩⟩ : Node) = n
    at hQuiet ⊢
  have hFits : d.Fits n := hNode ▸ ⟨rfl, rfl⟩
  have hFresh : n.payload.spent = false := hNode ▸ rfl
  let born : Estate := { w with env := Deed.replay (n.birth designs.length) w.env }
  have hInsert := Moment.Fits.insert_cases (w := born) kept.fits w.state.built n
  rcases hInsert with ⟨h, pool, es, hInsert, fits, hAccount, hPlain⟩ |
    ⟨event, cause, hDrop, hInsert⟩ | ⟨fault, hFault⟩
  · rw [hInsert]
    exact ⟨_, kept.lodge hFits hFresh fits hAccount (Deed.replay_ofPool hPlain _).symm⟩
  · rw [hInsert]
    exact ⟨_, kept.refuse hFits hFresh (Node.drop_eq hDrop designs.length)⟩
  · rcases hOutcome : born.insert n with ⟨outcome, w'⟩
    rw [hOutcome] at hFault hQuiet
    obtain rfl : outcome = .error (.fault fault) := hFault
    exact absurd hQuiet (List.append_ne_nil_of_right_ne_nil _ (List.cons_ne_nil _ _))

/-- Every order keeps the books, as long as no drop breaks off. -/
theorem Kept.serve (kept : Kept env₀ designs w deeds) (o : Order)
    (hQuiet : (w.serve o).state.broken = []) :
    ∃ more, Kept env₀ (designs ++ o.design?.toList) (w.serve o) (deeds ++ more) := by
  cases o with
  | build graph waitCount d => exact kept.build graph waitCount d hQuiet
  | run target => exact (List.append_nil designs).symm ▸ kept.run target
  | decrement target => exact (List.append_nil designs).symm ▸ (kept.decrement target).unchanged
  | notify target =>
      refine (List.append_nil designs).symm ▸ Kept.unchanged ?_
      rw [Estate.serve]
      split
      · exact kept
      · exact kept.notify _
  | destroy h => exact (List.append_nil designs).symm ▸ kept.destroy h hQuiet
  | take h => exact (List.append_nil designs).symm ▸ (kept.take h).unchanged
  | discard k => exact (List.append_nil designs).symm ▸ kept.discard k hQuiet

/-- Orders one after the other keep the books. That no drop has broken off at the end says that none
did before. -/
theorem Kept.serveAll {orders : List Order} (kept : Kept env₀ designs w deeds)
    (hQuiet : (w.serveAll orders).state.broken = []) :
    ∃ more, Kept env₀ (designs ++ orders.filterMap Order.design?) (w.serveAll orders)
      (deeds ++ more) := by
  induction orders generalizing designs w deeds with
  | nil => exact (List.append_nil designs).symm ▸ kept.unchanged
  | cons o orders ih =>
      have hFirst : (w.serve o).state.broken = [] :=
        List.prefix_nil.mp (hQuiet ▸ (w.serve o).broken_serveAll orders)
      obtain ⟨more, served⟩ := kept.serve o hFirst
      obtain ⟨rest, all⟩ := ih served hQuiet
      have hDesigns : designs ++ (o :: orders).filterMap Order.design? =
          designs ++ o.design?.toList ++ orders.filterMap Order.design? := by
        rw [List.append_assoc]
        cases hDesign : o.design? with
        | none => rw [List.filterMap_cons_none hDesign]; rfl
        | some d => rw [List.filterMap_cons_some hDesign]; rfl
      refine ⟨more ++ rest, ?_⟩
      rw [hDesigns, ← List.append_assoc]
      exact all

/-- A pool that nobody has used. -/
theorem kept_initial {o : PoolOptions} {p : Pool Node} (h : Pool.create o = .ok p)
    (env : Environment) : Kept env [] (⟨p, env, {}⟩ : Estate) [] where
  fits := Pool.Moment.fits_initial h
  env := rfl
  balance := {
    lives := ⟨List.nodup_nil, nofun, nofun, fun _ _ => rfl⟩
    account := congrArg some (by
      have hBlocks : p.blocks = 0 := Pool.blocks_initial h
      rw [hBlocks]
      rfl) }
  built := rfl

end Keeping

end Graph

end TaskMemory

import Mathlib.Algebra.GroupWithZero.Nat
import TaskMemory.Proofs.Graph.Deeds
import TaskMemory.Proofs.Pool.Program

/-!
The lives of nodes. What is done for a node from its construction to its end is in a fixed order:
its two blocks are obtained, its callable may be run, and at the end the block of its successors is
given back, then the callable is dropped if it has not been run, then the block of the payload is
given back. `Lives` says that the deeds so far are the lives of all nodes that were built, and
`Balance` that the blocks that are out are those of the pool and of the nodes that exist.
-/
namespace TaskMemory

namespace Node

open TaskMemory.Graph (Deed)

variable {n : Node} {k : Nat}

/-- The block of the successors, if there are any. -/
def listBlock (n : Node) : List Layout :=
  if n.successors.handles = [] then [] else [n.successors.storage]

def blocks (n : Node) : Multiset Layout := n.payload.block ::ₘ n.listBlock

/-- The bytes that a node has in its blocks. -/
def bytes (n : Node) : Nat := n.payload.block.size + 4 * n.successors.length

/-- What is done for a node when it is built. -/
def birth (k : Nat) (n : Node) : List Deed :=
  .obtain (.payload k) n.payload.block :: n.listBlock.map (.obtain (.successors k))

/-- What has been done with the callable of a node. -/
def work (k : Nat) (n : Node) : List Deed :=
  if n.payload.spent then [.run k n.payload.callable] else []

/-- What is done for a node when it is dropped. -/
def burial (k : Nat) (n : Node) : List Deed :=
  n.listBlock.map (.giveBack (.successors k)) ++
    ((if n.payload.spent then [] else [.drop k n.payload.callable]) ++
      [.giveBack (.payload k) n.payload.block])

/-- The bytes of a node are those of its two blocks. -/
theorem sum_blocks (n : Node) : (n.blocks.map Layout.size).sum = n.bytes := by
  rw [blocks, listBlock, bytes]
  split
  · next hNone => simp [Successors.length, hNone]
  · simp [Successors.storage, Layout.array, Successors.length]

/-- An empty list of successors is in no block, and none is asked for. -/
theorem replay_obtain_listBlock (env : Environment) :
    Deed.replay (n.listBlock.map (.obtain (.successors k))) env =
      env.allocate n.successors.storage := by
  rw [listBlock]
  split
  · next hNone =>
      have hSize : n.successors.storage.size = 0 := by
        simp [Successors.storage, Layout.array, hNone]
      rw [Environment.allocate, if_pos hSize]
      rfl
  · rfl

theorem replay_giveBack_listBlock (env : Environment) :
    Deed.replay (n.listBlock.map (.giveBack (.successors k))) env =
      env.release n.successors.storage := by
  rw [listBlock]
  split
  · next hNone =>
      have hSize : n.successors.storage.size = 0 := by
        simp [Successors.storage, Layout.array, hNone]
      rw [Environment.release, if_pos hSize]
      rfl
  · rfl

/-- A node is built with its payload in a block and its successors in another one. -/
theorem create_eq (graph waitCount : UInt32) (c : Callable) (handles : List Handle)
    (env : Environment) (k : Nat) : Node.create graph waitCount c handles env =
      (⟨graph, waitCount, { callable := c }, ⟨handles⟩⟩,
        Deed.replay (birth k ⟨graph, waitCount, { callable := c }, ⟨handles⟩⟩) env) := by
  have hList := replay_obtain_listBlock (n := ⟨graph, waitCount, { callable := c }, ⟨handles⟩⟩)
    (k := k) (env.allocate ({ callable := c } : Payload).block)
  exact congrArg (Prod.mk _) hList.symm

/-- A node that has not been run runs its callable. -/
theorem run_eq (n : Node) (env : Environment) (k : Nat) :
    (n.run env).2.1 = { n with payload.spent := true } ∧
    (n.run env).2.2 = Deed.replay
      (if n.payload.spent then [] else [.run k n.payload.callable]) env := by
  obtain ⟨graph, waitCount, ⟨callable, _ | _⟩, successors⟩ := n
  · have hInvoke := Deed.invoke_unspent callable env
    have hPayload := congrArg Prod.fst hInvoke
    exact ⟨congrArg (Node.mk graph waitCount · successors) hPayload, congrArg Prod.snd hInvoke⟩
  · simp [run, Payload.invoke, Payload.claim, Deed.replay]

/-- A drop that does not end in a fault does all that has to be done for the node. -/
theorem drop_eq {env : Environment} (hQuiet : (Stored.drop false n env).1 = none) (k : Nat) :
    (Stored.drop false n env).2.2 = Deed.replay (n.burial k) env := by
  have hList := replay_giveBack_listBlock (n := n) (k := k) env
  rw [burial, Deed.replay_append, hList]
  change (n.payload.drop false (env.release n.successors.storage)).1 = none at hQuiet
  change (n.payload.drop false (env.release n.successors.storage)).2 = _
  rw [Payload.drop] at hQuiet ⊢
  cases hSpent : n.payload.spent with
  | true => rfl
  | false =>
      simp only [hSpent, Bool.false_eq_true, ↓reduceIte] at hQuiet ⊢
      rcases hDrop : n.payload.callable.drop false (env.release n.successors.storage) with
        ⟨_ | fault, env'⟩
      · simp [Deed.replay, Deed.act, hDrop]
      · rw [hDrop] at hQuiet
        cases hQuiet

theorem number?_birth : ∀ d ∈ n.birth k, d.number? = some k := by
  intro d hd
  rcases List.mem_cons.mp hd with rfl | hd
  · rfl
  · obtain ⟨block, -, rfl⟩ := List.mem_map.mp hd
    rfl

theorem number?_burial : ∀ d ∈ n.burial k, d.number? = some k := by
  intro d hd
  rcases List.mem_append.mp hd with hd | hd
  · obtain ⟨block, -, rfl⟩ := List.mem_map.mp hd
    rfl
  · rcases List.mem_append.mp hd with hd | hd
    · split at hd
      · cases hd
      · obtain rfl := List.mem_singleton.mp hd
        rfl
    · obtain rfl := List.mem_singleton.mp hd
      rfl

/-- The callable of a node that is gone has been run or dropped, once. -/
theorem countP_consumes_life (n : Node) (k : Nat) :
    (n.birth k ++ n.work k ++ n.burial k).countP (Deed.consumes k) = 1 := by
  have hBirth : (n.birth k).countP (Deed.consumes k) = 0 := by
    rw [List.countP_eq_zero]
    intro d hd
    rcases List.mem_cons.mp hd with rfl | hd
    · simp [Deed.consumes]
    · obtain ⟨block, -, rfl⟩ := List.mem_map.mp hd
      simp [Deed.consumes]
  have hList : (n.listBlock.map (Deed.giveBack (.successors k))).countP (Deed.consumes k) = 0 := by
    rw [List.countP_eq_zero]
    intro d hd
    obtain ⟨block, -, rfl⟩ := List.mem_map.mp hd
    simp [Deed.consumes]
  rw [List.countP_append, List.countP_append, hBirth, burial, List.countP_append, hList, work]
  cases n.payload.spent <;> simp [Deed.consumes]

/-- The callable of a node is all that is run or dropped for it. -/
theorem work?_life {d : Deed} (hd : d ∈ n.birth k ++ n.work k ++ n.burial k) {c : Callable}
    (hWork : d.work? = some c) : c = n.payload.callable := by
  have hBirth : ∀ d ∈ n.birth k, d.work? = none := by
    intro d hd
    rcases List.mem_cons.mp hd with rfl | hd
    · rfl
    · obtain ⟨block, -, rfl⟩ := List.mem_map.mp hd
      rfl
  rcases List.mem_append.mp hd with hd | hd
  · rcases List.mem_append.mp hd with hd | hd
    · rw [hBirth d hd] at hWork
      cases hWork
    · rw [work] at hd
      split at hd
      · obtain rfl := List.mem_singleton.mp hd
        exact (Option.some.inj hWork).symm
      · cases hd
  · rcases List.mem_append.mp hd with hd | hd
    · obtain ⟨block, -, rfl⟩ := List.mem_map.mp hd
      cases hWork
    · rcases List.mem_append.mp hd with hd | hd
      · split at hd
        · cases hd
        · obtain rfl := List.mem_singleton.mp hd
          exact (Option.some.inj hWork).symm
      · obtain rfl := List.mem_singleton.mp hd
        cases hWork

/-- After its birth the blocks of a node are out. -/
theorem account_birth (held : Multiset Layout) :
    Deed.account (n.birth k) held = some (n.blocks + held) := by
  have hPayload : Deed.account [.obtain (.payload k) n.payload.block] held =
      some (n.payload.block ::ₘ held) := rfl
  refine (Deed.account_append hPayload).trans ?_
  rw [blocks, listBlock]
  split
  · simp
  · rw [Multiset.cons_add, Multiset.coe_singleton, Multiset.singleton_add, Multiset.cons_swap]
    rfl

/-- After its burial the blocks of a node are back. -/
theorem account_burial (held : Multiset Layout) :
    Deed.account (n.burial k) (n.blocks + held) = some held := by
  have hList : Deed.account (n.listBlock.map (.giveBack (.successors k))) (n.blocks + held) =
      some (n.payload.block ::ₘ held) := by
    rw [blocks, listBlock]
    split
    · simp
    · rw [Multiset.cons_add, Multiset.coe_singleton, Multiset.singleton_add, Multiset.cons_swap]
      exact Deed.account_giveBack ..
  have hDrop : Deed.account (if n.payload.spent then [] else [.drop k n.payload.callable])
      (n.payload.block ::ₘ held) = some (n.payload.block ::ₘ held) := by
    split <;> rfl
  rw [burial, Deed.account_append hList, Deed.account_append hDrop]
  exact Deed.account_giveBack ..

end Node

namespace Graph

open Pool (Holding)

/-- What a node is built from, beside its numbers. -/
structure Design where
  work : Callable
  successors : List Handle

/-- The node has been built so. -/
structure Design.Fits (d : Design) (n : Node) : Prop where
  work : n.payload.callable = d.work
  successors : n.successors.handles = d.successors

/-- A node becomes another one, and this is what is done for it, if it is the node of a number. -/
structure Becomes (n n' : Node) (more : Nat → List Deed) : Prop where
  fits : ∀ d : Design, d.Fits n → d.Fits n'
  number? : ∀ k, ∀ d ∈ more k, d.number? = some k
  life : ∀ k, n.birth k ++ n.work k ++ more k = n'.birth k ++ n'.work k
  blocks : n'.blocks = n.blocks
  account : ∀ k held, Deed.account (more k) held = some held

/-- A node is run unless it is spent. -/
theorem becomes_run (n : Node) : Becomes n { n with payload.spent := true }
    fun k => if n.payload.spent then [] else [.run k n.payload.callable] where
  fits _ hFits := ⟨hFits.work, hFits.successors⟩
  number? k d hd := by
    split at hd
    · cases hd
    · obtain rfl := List.mem_singleton.mp hd
      rfl
  life k := by
    rw [List.append_assoc]
    refine congrArg (n.birth k ++ ·) ?_
    cases hSpent : n.payload.spent <;> simp [Node.work, hSpent]
  blocks := rfl
  account k held := by split <;> rfl

/-- A decrement changes nothing that a life tells of. -/
theorem becomes_decrement (n : Node) : Becomes n n.decrement.2 fun _ => [] where
  fits _ hFits := ⟨hFits.work, hFits.successors⟩
  number? _ := nofun
  life _ := List.append_nil _
  blocks := rfl
  account _ _ := rfl

/-- The deeds are the lives so far of nodes that were built one after the other. These exist, each
under its number, and the others are gone. -/
structure Lives (designs : List Design) (nodes : List (Holding Node)) (deeds : List Deed) :
    Prop where
  numbers : (nodes.map Holding.birth).Nodup
  present : ∀ r ∈ nodes, ∃ d, designs[r.birth]? = some d ∧ d.Fits r.value ∧
    Deed.of r.birth deeds = r.value.birth r.birth ++ r.value.work r.birth
  gone : ∀ k d, designs[k]? = some d → k ∉ nodes.map Holding.birth → ∃ n, d.Fits n ∧
    Deed.of k deeds = n.birth k ++ n.work k ++ n.burial k
  later : ∀ k, designs.length ≤ k → Deed.of k deeds = []

/-- The blocks of nodes. -/
def blocksOf (nodes : List (Holding Node)) : Multiset Layout :=
  (nodes.map fun r => r.value.blocks).sum

theorem blocksOf_cons (r : Holding Node) (nodes : List (Holding Node)) :
    blocksOf (r :: nodes) = r.value.blocks + blocksOf nodes :=
  List.sum_cons

/-- In which order the nodes are listed does not matter to their blocks. -/
theorem blocksOf_perm {nodes nodes' : List (Holding Node)} (h : nodes.Perm nodes') :
    blocksOf nodes = blocksOf nodes' :=
  (h.map _).sum_eq

/-- The bytes of nodes. -/
def bytesOf (nodes : List (Holding Node)) : Nat := (nodes.map fun r => r.value.bytes).sum

/-- The bytes that nodes have are those of their blocks. -/
theorem sum_blocksOf (nodes : List (Holding Node)) :
    ((blocksOf nodes).map Layout.size).sum = bytesOf nodes := by
  induction nodes with
  | nil => rfl
  | cons r nodes ih =>
      have hBytes : bytesOf (r :: nodes) = r.value.bytes + bytesOf nodes := List.sum_cons
      rw [blocksOf_cons, hBytes, Multiset.map_add, Multiset.sum_add, Node.sum_blocks, ih]

namespace Lives

variable {designs : List Design} {nodes nodes' : List (Holding Node)} {deeds more : List Deed}
  {r : Holding Node} {n : Node} {k : Nat}

/-- Lives do not depend on the order in which the nodes are listed. -/
theorem perm (lives : Lives designs nodes deeds) (h : nodes.Perm nodes') :
    Lives designs nodes' deeds where
  numbers := (h.map _).nodup_iff.mp lives.numbers
  present r hr := lives.present r (h.mem_iff.mpr hr)
  gone k d hDesign hGone :=
    lives.gone k d hDesign fun hMem => hGone ((h.map Holding.birth).mem_iff.mp hMem)
  later := lives.later

/-- A number that a node has is the number of a design. -/
theorem birth_lt (lives : Lives designs nodes deeds) (hr : r ∈ nodes) :
    r.birth < designs.length := by
  obtain ⟨d, hDesign, -⟩ := lives.present r hr
  exact (List.getElem?_eq_some_iff.mp hDesign).1

/-- What is done for the pool leaves the lives of the nodes as they are. -/
theorem aside (lives : Lives designs nodes deeds) (h : ∀ d ∈ more, d.number? = none) :
    Lives designs nodes (deeds ++ more) := by
  refine ⟨lives.numbers, ?_, ?_, ?_⟩
  · intro r hr
    rw [Deed.of_append_of_none h]
    exact lives.present r hr
  · intro k d hDesign hGone
    rw [Deed.of_append_of_none h]
    exact lives.gone k d hDesign hGone
  · intro k hk
    rw [Deed.of_append_of_none h]
    exact lives.later k hk

/-- A node is built under the next number. -/
theorem build (lives : Lives designs nodes deeds) {d : Design} {n : Node} (hFits : d.Fits n)
    (hFresh : n.payload.spent = false) (h : Handle) :
    Lives (designs ++ [d]) (⟨h, designs.length, n⟩ :: nodes)
      (deeds ++ n.birth designs.length) := by
  have hOther : ∀ k ≠ designs.length, Deed.of k (deeds ++ n.birth designs.length) =
      Deed.of k deeds := fun k hNe => Deed.of_append_of_ne Node.number?_birth hNe
  refine ⟨?_, ?_, ?_, ?_⟩
  · rw [List.map_cons, List.nodup_cons]
    refine ⟨fun hMem => ?_, lives.numbers⟩
    obtain ⟨r, hr, hBirth⟩ := List.mem_map.mp hMem
    exact Nat.lt_irrefl _ (hBirth ▸ lives.birth_lt hr)
  · intro r hr
    rcases List.mem_cons.mp hr with rfl | hr
    · refine ⟨d, List.getElem?_concat_length, hFits, ?_⟩
      rw [Deed.of_append, lives.later _ (Nat.le_refl _), Deed.of_eq_self Node.number?_birth,
        Node.work, hFresh]
      exact (List.append_nil _).symm
    · have hLt := lives.birth_lt hr
      rw [hOther _ (Nat.ne_of_lt hLt), List.getElem?_append_left hLt]
      exact lives.present r hr
  · intro k d' hDesign hGone
    rw [List.map_cons, List.mem_cons, not_or] at hGone
    have hLt : k < designs.length := by
      have hLe := (List.getElem?_eq_some_iff.mp hDesign).1
      rw [List.length_append, List.length_singleton] at hLe
      exact Nat.lt_of_le_of_ne (Nat.le_of_lt_succ hLe) hGone.1
    rw [hOther k hGone.1]
    rw [List.getElem?_append_left hLt] at hDesign
    exact lives.gone k d' hDesign hGone.2
  · intro k hk
    rw [List.length_append, List.length_singleton] at hk
    rw [hOther k (Nat.ne_of_gt hk)]
    exact lives.later k (Nat.le_of_succ_le hk)

/-- Other nodes are not concerned by what is done for the first one. -/
theorem present_of_mem_tail (lives : Lives designs (r :: nodes) deeds)
    (hMore : ∀ d ∈ more, d.number? = some r.birth) {s : Holding Node} (hs : s ∈ nodes) :
    ∃ d, designs[s.birth]? = some d ∧ d.Fits s.value ∧
      Deed.of s.birth (deeds ++ more) = s.value.birth s.birth ++ s.value.work s.birth := by
  have hNe : s.birth ≠ r.birth := by
    intro hEq
    exact (List.nodup_cons.mp lives.numbers).1 (List.mem_map.mpr ⟨s, hs, hEq⟩)
  rw [Deed.of_append_of_ne hMore hNe]
  exact lives.present s (List.mem_cons_of_mem _ hs)

/-- Something is done for a node that goes on to exist. -/
theorem rework {more : Nat → List Deed} (lives : Lives designs (r :: nodes) deeds)
    (becomes : Becomes r.value n more) :
    Lives designs ({ r with value := n } :: nodes) (deeds ++ more r.birth) := by
  have hMore := becomes.number? r.birth
  obtain ⟨d, hDesign, hFit, hDeeds⟩ := lives.present r List.mem_cons_self
  refine ⟨lives.numbers, ?_, ?_, ?_⟩
  · intro s hs
    rcases List.mem_cons.mp hs with rfl | hs
    · refine ⟨d, hDesign, becomes.fits d hFit, ?_⟩
      rw [Deed.of_append, hDeeds, Deed.of_eq_self hMore, becomes.life]
    · exact lives.present_of_mem_tail hMore hs
  · intro k d' hDesign' hGone
    have hNe : k ≠ r.birth := fun hEq => hGone (hEq ▸ List.mem_cons_self)
    rw [Deed.of_append_of_ne hMore hNe]
    exact lives.gone k d' hDesign' hGone
  · intro k hk
    have hNe : k ≠ r.birth := Nat.ne_of_gt
      (Nat.lt_of_lt_of_le (lives.birth_lt List.mem_cons_self) hk)
    rw [Deed.of_append_of_ne hMore hNe]
    exact lives.later k hk

/-- A node ends. -/
theorem bury (lives : Lives designs (r :: nodes) deeds) :
    Lives designs nodes (deeds ++ r.value.burial r.birth) := by
  have hMore : ∀ d ∈ r.value.burial r.birth, d.number? = some r.birth := Node.number?_burial
  obtain ⟨d, hDesign, hFit, hDeeds⟩ := lives.present r List.mem_cons_self
  refine ⟨(List.nodup_cons.mp lives.numbers).2, ?_, ?_, ?_⟩
  · exact fun s hs => lives.present_of_mem_tail hMore hs
  · intro k d' hDesign' hGone
    by_cases hEq : k = r.birth
    · subst hEq
      obtain rfl : d' = d := Option.some.inj (hDesign'.symm.trans hDesign)
      exact ⟨r.value, hFit, by rw [Deed.of_append, hDeeds, Deed.of_eq_self hMore]⟩
    · rw [Deed.of_append_of_ne hMore hEq]
      refine lives.gone k d' hDesign' fun hMem => ?_
      exact (List.mem_cons.mp hMem).elim hEq hGone
  · intro k hk
    have hNe : k ≠ r.birth := Nat.ne_of_gt
      (Nat.lt_of_lt_of_le (lives.birth_lt List.mem_cons_self) hk)
    rw [Deed.of_append_of_ne hMore hNe]
    exact lives.later k hk

/-- Only callables that nodes were built from are run or dropped. -/
theorem work_mem (lives : Lives designs nodes deeds) {d : Deed} (hd : d ∈ deeds) {c : Callable}
    (hWork : d.work? = some c) : ∃ design ∈ designs, c = design.work := by
  obtain ⟨k, hNumber⟩ : ∃ k, d.number? = some k := by
    cases d with
    | run number | drop number => exact ⟨number, rfl⟩
    | _ => cases hWork
  have hOf : d ∈ Deed.of k deeds := List.mem_filter.mpr ⟨hd, decide_eq_true hNumber⟩
  have hLt : k < designs.length := by
    by_contra hLe
    rw [lives.later k (Nat.le_of_not_lt hLe)] at hOf
    cases hOf
  by_cases hPresent : k ∈ nodes.map Holding.birth
  · obtain ⟨r, hr, rfl⟩ := List.mem_map.mp hPresent
    obtain ⟨design, hDesign, fits, hDeeds⟩ := lives.present r hr
    rw [hDeeds] at hOf
    exact ⟨design, List.mem_of_getElem? hDesign,
      (Node.work?_life (List.mem_append_left _ hOf) hWork).trans fits.work⟩
  · have hDesign := List.getElem?_eq_getElem hLt
    obtain ⟨n, fits, hDeeds⟩ := lives.gone k designs[k] hDesign hPresent
    rw [hDeeds] at hOf
    exact ⟨designs[k], List.getElem_mem hLt, (Node.work?_life hOf hWork).trans fits.work⟩

end Lives

/-- The deeds are the lives of the nodes so far, and the blocks that are out are those of the pool
and those of the nodes that exist. -/
structure Balance (designs : List Design) (pool : Multiset Layout) (nodes : List (Holding Node))
    (deeds : List Deed) : Prop where
  lives : Lives designs nodes deeds
  account : Deed.account deeds 0 = some (pool + blocksOf nodes)

namespace Balance

variable {designs : List Design} {pool pool' : Multiset Layout}
  {nodes nodes' : List (Holding Node)} {deeds more : List Deed} {r : Holding Node} {n : Node}

theorem perm (balance : Balance designs pool nodes deeds) (h : nodes.Perm nodes') :
    Balance designs pool nodes' deeds :=
  ⟨balance.lives.perm h, blocksOf_perm h ▸ balance.account⟩

/-- The pool obtains blocks and gives blocks back. -/
theorem aside {α : Type} {es : List (Effect α)} (balance : Balance designs pool nodes deeds)
    (h : Effect.account es pool = some pool') :
    Balance designs pool' nodes (deeds ++ es.flatMap Deed.ofPool) :=
  ⟨balance.lives.aside (Deed.number?_ofPool es),
    (Deed.account_append balance.account).trans (Deed.account_ofPool h _)⟩

/-- A node that is built adds its blocks and begins a life. -/
theorem build (balance : Balance designs pool nodes deeds) {d : Design} (hFits : d.Fits n)
    (hFresh : n.payload.spent = false) (h : Handle) :
    Balance (designs ++ [d]) pool (⟨h, designs.length, n⟩ :: nodes)
      (deeds ++ n.birth designs.length) := by
  refine ⟨balance.lives.build hFits hFresh h, ?_⟩
  have hOut : n.blocks + (pool + blocksOf nodes) = pool + (n.blocks + blocksOf nodes) := by ac_rfl
  rw [Deed.account_append balance.account, Node.account_birth, hOut, blocksOf_cons]

/-- What is done with a node goes into its life, and its blocks stay the same. -/
theorem rework {more : Nat → List Deed} (balance : Balance designs pool (r :: nodes) deeds)
    (becomes : Becomes r.value n more) :
    Balance designs pool ({ r with value := n } :: nodes) (deeds ++ more r.birth) := by
  refine ⟨balance.lives.rework becomes, ?_⟩
  rw [Deed.account_append balance.account, becomes.account, blocksOf_cons, blocksOf_cons,
    becomes.blocks]

/-- A node that is dropped takes its blocks along and ends its life. -/
theorem bury (balance : Balance designs pool (r :: nodes) deeds) :
    Balance designs pool nodes (deeds ++ r.value.burial r.birth) := by
  have hOut : pool + (r.value.blocks + blocksOf nodes) =
      r.value.blocks + (pool + blocksOf nodes) := by ac_rfl
  refine ⟨balance.lives.bury, ?_⟩
  rw [Deed.account_append balance.account, blocksOf_cons, hOut, Node.account_burial]

/-- Several nodes end, one after the other. -/
theorem buryAll {ending : List (Holding Node)}
    (balance : Balance designs pool (ending ++ nodes) deeds) :
    Balance designs pool nodes (deeds ++ ending.flatMap fun r => r.value.burial r.birth) := by
  induction ending generalizing deeds with
  | nil => rwa [List.flatMap_nil, List.append_nil]
  | cons r ending ih =>
      rw [List.flatMap_cons, ← List.append_assoc]
      exact ih balance.bury

end Balance

end Graph

end TaskMemory

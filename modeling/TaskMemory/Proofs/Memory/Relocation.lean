import TaskMemory.Proofs.Memory.Growth
import TaskMemory.Proofs.Memory.Storage

/-!
A table that is filled entry by entry, with its blocks. It makes no mistake: it breaks off only for
want of memory, and otherwise its entries are in the last block that it obtained, in order, and the
blocks before that one have been given back.
-/
namespace TaskMemory.Table

variable {α : Type}

section

variable (entry : Layout) {as : List α} {a : α} {env : Environment} {past room : Nat}

/-- A block behind those that have been given back, with these entries in it. -/
def lodged (past room : Nat) (as : List α) (env : Environment) : Storage α :=
  ⟨env, List.replicate past none ++
    [some ⟨entry.array room, as.map some ++ List.replicate (room - as.length) none⟩]⟩

/-- An entry is put behind the others if there is room. -/
theorem put_lodged (h : as.length < room) : (lodged entry past room as env).put past as.length a =
    .ok (lodged entry past room (as ++ [a]) env) := by
  obtain ⟨spare, rfl⟩ := Nat.exists_eq_add_of_lt h
  have hSpare : as.length + spare + 1 - as.length = spare + 1 := by omega
  have hLess : as.length + spare + 1 - (as ++ [a]).length = spare := by
    rw [List.length_append, List.length_singleton]
    omega
  rw [lodged, hSpare, List.replicate_succ]
  refine (Storage.put_middle List.length_replicate (List.length_map _)).trans ?_
  rw [lodged, hLess, List.map_append, List.append_assoc]
  rfl

theorem look_lodged {i : Nat} (h : i < as.length) :
    (lodged entry past room as env).look past i = .ok as[i] := by
  have hCell : (as.map some ++ List.replicate (room - as.length) none)[i]? = some (some as[i]) := by
    rw [List.getElem?_append_left (by rwa [List.length_map]), List.getElem?_map,
      List.getElem?_eq_getElem h]
    rfl
  simp only [Storage.look, lodged, getElem?_middle List.length_replicate, hCell]

/-- A second block is obtained, which no entry has been moved to. -/
theorem obtain_lodged (past : Nat) (as : List α) {block : Layout} (hPossible : block.Possible)
    (hGranted : env.Grants block) (spare : Nat) :
    (lodged entry past as.length as env).obtain block (as.length + spare) = .ok (past + 1,
      .midway (env.allocate block) past (entry.array as.length) block spare [] as) := by
  have hEnv : (lodged entry past as.length as env).env = env := rfl
  rw [Storage.obtain, if_pos hPossible, hEnv, if_pos hGranted]
  simp [lodged, Storage.midway]

/-- The first block is given back when all entries have been moved. -/
theorem giveBack_midway (env : Environment) (past : Nat) (as : List α) (spare : Nat) :
    (Storage.midway env past (entry.array as.length) (entry.array (as.length + spare)) spare as
      []).giveBack past (entry.array as.length) = .ok (lodged entry (past + 1) (as.length + spare) as
        (env.release (entry.array as.length))) := by
  have hSource : List.replicate as.length none ++ ([] : List α).map some =
      List.replicate as.length none := List.append_nil _
  rw [Storage.midway, hSource]
  refine (Storage.giveBack_middle List.length_replicate as.length).trans ?_
  rw [lodged, Nat.add_sub_cancel_left, List.replicate_succ', List.append_assoc, List.length_nil,
    Nat.zero_add]
  rfl

/-- What is in memory when a table has been filled with these entries. -/
def filledStorage (as : List α) (env : Environment) : Storage α :=
  if as = [] then { env } else lodged entry (doublings as.length) (roomFor as.length) as env

/-- The table that has been filled with so many entries. -/
def filledFrame (n : Nat) : Frame := ⟨doublings n, n, roomFor n⟩

/-- There is a block for one entry more, or no need of one. -/
def CanGrow (n : Nat) (env : Environment) : Prop :=
  n = roomFor n →
    (entry.array (nextCapacity n)).Possible ∧ env.Grants (entry.array (nextCapacity n))

/-- A full table that can grow comes to have room for a further entry. -/
theorem grow_filled (hFull : as.length = roomFor as.length) (can : CanGrow entry as.length env) :
    (filledFrame as.length).grow entry (filledStorage entry as env) =
      .ok (⟨doublings (as.length + 1), as.length, roomFor (as.length + 1)⟩,
        lodged entry (doublings (as.length + 1)) (roomFor (as.length + 1)) as
          (Effect.replay (growth entry as.length (roomFor as.length)) env)) := by
  obtain ⟨hPossible, hGranted⟩ := can hFull
  rw [roomFor_succ, if_pos hFull, growth, if_pos hFull, filledFrame, Frame.grow, ← hFull,
    filledStorage]
  by_cases hNone : as = []
  · subst hNone
    simp only [if_true, Storage.obtain, if_pos hPossible, if_pos hGranted]
    rfl
  · have hSome : as.length ≠ 0 := mt List.length_eq_zero_iff.mp hNone
    have hNext : nextCapacity as.length = as.length + as.length := by
      rw [nextCapacity, if_neg hSome, Nat.mul_two]
    rw [hNext] at hPossible hGranted
    rw [if_neg hNone, if_neg hSome, doublings_succ_of_full hSome hFull, ← hFull, hNext]
    have hMove := Storage.move_midway (env.allocate (entry.array (as.length + as.length)))
      (doublings as.length) (entry.array as.length) (entry.array (as.length + as.length)) as.length
      [] as
    rw [List.length_nil, List.nil_append] at hMove
    simp only [obtain_lodged entry (doublings as.length) as hPossible hGranted, bind, Except.bind,
      if_neg hSome, hMove, giveBack_midway]
    rfl

/-- A push that the memory can serve leads to the table with one more entry. -/
theorem push_filled (a : α) (can : CanGrow entry as.length env) :
    (filledFrame as.length).push entry a (filledStorage entry as env) =
      .ok (filledFrame (as.length + 1), filledStorage entry (as ++ [a])
        (Effect.replay (growth entry as.length (roomFor as.length)) env)) := by
  have hLt : as.length < roomFor (as.length + 1) := le_roomFor (as.length + 1)
  have hFilled : ∀ env, filledStorage entry (as ++ [a]) env =
      lodged entry (doublings (as.length + 1)) (roomFor (as.length + 1)) (as ++ [a]) env := by
    intro env
    rw [filledStorage, if_neg (List.append_ne_nil_of_right_ne_nil as (List.cons_ne_nil a [])),
      List.length_append, List.length_singleton]
  rw [Frame.push, hFilled]
  by_cases hFull : as.length = roomFor as.length
  · have hSame : (filledFrame as.length).size = (filledFrame as.length).capacity := hFull
    rw [if_pos hSame, grow_filled entry hFull can]
    simp only [bind, Except.bind, put_lodged entry hLt]
    rfl
  · have hSome : as ≠ [] := by
      rintro rfl
      exact hFull rfl
    have hLength : as.length ≠ 0 := mt List.length_eq_zero_iff.mp hSome
    have hOther : ¬(filledFrame as.length).size = (filledFrame as.length).capacity := hFull
    have hRoom : roomFor as.length = roomFor (as.length + 1) := by
      rw [roomFor_succ, if_neg hFull]
    rw [if_neg hOther, growth, if_neg hFull, filledStorage, if_neg hSome, filledFrame, hRoom,
      ← doublings_succ_of_room hLength hFull]
    simp only [pure, Except.pure, bind, Except.bind, put_lodged entry hLt]
    rfl

theorem env_filledStorage (as : List α) (env : Environment) :
    (filledStorage entry as env).env = env := by
  rw [filledStorage]
  split <;> rfl

/-- A push that the memory cannot serve breaks off because of it. -/
theorem push_breach (a : α) (cannot : ¬CanGrow entry as.length env) :
    ∃ breach, breach.OfMemory ∧
      (filledFrame as.length).push entry a (filledStorage entry as env) = .error breach := by
  rw [CanGrow, Classical.not_imp, not_and] at cannot
  obtain ⟨hFull, hNot⟩ := cannot
  have hSame : (filledFrame as.length).size = (filledFrame as.length).capacity := hFull
  have hCapacity : (filledFrame as.length).capacity = as.length := hFull.symm
  rw [Frame.push, if_pos hSame, Frame.grow, hCapacity, Storage.obtain, env_filledStorage]
  by_cases hPossible : (entry.array (nextCapacity as.length)).Possible
  · rw [if_pos hPossible, if_neg (hNot hPossible)]
    exact ⟨.refused, .inr rfl, rfl⟩
  · rw [if_neg hPossible]
    exact ⟨.tooLarge, .inl rfl, rfl⟩

/-- There is memory for a table with so many entries, and for all that it goes through. -/
structure Affordable (n : Nat) (env : Environment) : Prop where
  possible : n ≠ 0 → (entry.array (roomFor n)).Possible
  granted : Effect.Granted (course entry n) env

/-- A table needs a new block only if it is full. -/
theorem granted_growth (n : Nat) (env : Environment) :
    Effect.Granted (growth entry n (roomFor n)) env ↔
      (n = roomFor n → env.Grants (entry.array (nextCapacity n))) := by
  rw [growth]
  split
  · next hFull =>
      rw [← hFull]
      constructor
      · exact fun granted _ => granted.1 _ rfl
      · intro hGrants
        refine ⟨fun block hBlock => ?_, ?_⟩
        · exact Effect.obtain.inj hBlock ▸ hGrants rfl
        · split
          · trivial
          · exact ⟨fun _ hBlock => (by cases hBlock), trivial⟩
  · next hRoom => exact ⟨fun _ hFull => absurd hFull hRoom, fun _ => trivial⟩

/-- Room for one more entry is had if there was room for the others and the table can grow then. -/
theorem affordable_succ (n : Nat) (env : Environment) : Affordable entry (n + 1) env ↔
    Affordable entry n env ∧ CanGrow entry n (Effect.replay (course entry n) env) := by
  have hGranted : Effect.Granted (course entry (n + 1)) env ↔ Effect.Granted (course entry n) env ∧
      (n = roomFor n →
        (Effect.replay (course entry n) env).Grants (entry.array (nextCapacity n))) := by
    rw [course_succ, Effect.granted_append, granted_growth]
  constructor
  · intro affordable
    have hPossible := affordable.possible (Nat.succ_ne_zero n)
    obtain ⟨granted, hGrants⟩ := hGranted.mp affordable.granted
    have hRoom := roomFor_succ n
    refine ⟨⟨fun _ => hPossible.mono ?_, granted⟩, fun hFull => ⟨?_, hGrants hFull⟩⟩
    · exact roomFor_mono (Nat.le_succ n)
    · rwa [hRoom, if_pos hFull, ← hFull] at hPossible
  · rintro ⟨affordable, can⟩
    refine ⟨fun _ => ?_, hGranted.mpr ⟨affordable.granted, fun hFull => (can hFull).2⟩⟩
    rw [roomFor_succ]
    split
    · next hFull => exact hFull ▸ (can hFull).1
    · next hRoom => exact affordable.possible fun hNone => hRoom (hNone ▸ rfl)

/-- The last entry is put into the table that the others have filled. -/
theorem fill_concat (as : List α) (a : α) (env : Environment) :
    Frame.fill entry (as ++ [a]) env =
      Frame.fill entry as env >>= fun x => x.1.push entry a x.2 := by
  rw [Frame.fill, List.foldlM_append, ← Frame.fill]
  simp only [List.foldlM_cons, List.foldlM_nil, bind_pure]

/-- Where the memory suffices a table is filled with all entries in their order. By induction from
the end of the list, so that the last push is a step from a filled table. -/
theorem fill_of_affordable (affordable : Affordable entry as.length env) :
    Frame.fill entry as env = .ok (filledFrame as.length,
      filledStorage entry as (Effect.replay (course entry as.length) env)) := by
  induction as using List.reverseRecOn with
  | nil => rfl
  | append_singleton as a ih =>
      rw [List.length_append, List.length_singleton] at affordable ⊢
      obtain ⟨affordable, can⟩ := (affordable_succ entry as.length env).mp affordable
      rw [fill_concat, ih affordable, course_succ, Effect.replay_append,
        ← push_filled entry a can]
      rfl

/-- Without the memory the work breaks off, and there is no other cause for that. -/
theorem fill_of_not_affordable (not : ¬Affordable entry as.length env) :
    ∃ breach, breach.OfMemory ∧ Frame.fill entry as env = .error breach := by
  induction as using List.reverseRecOn with
  | nil => exact absurd ⟨fun h => absurd rfl h, trivial⟩ not
  | append_singleton as a ih =>
      rw [List.length_append, List.length_singleton, affordable_succ, not_and] at not
      rw [fill_concat]
      by_cases affordable : Affordable entry as.length env
      · rw [fill_of_affordable entry affordable]
        exact push_breach entry a (not affordable)
      · obtain ⟨breach, ofMemory, hFill⟩ := ih affordable
        exact ⟨breach, ofMemory, by rw [hFill]; rfl⟩

/-- Every entry is found under its index in a filled table, and nothing behind them. -/
theorem get?_filled (i : Nat) :
    (filledFrame as.length).get? i (filledStorage entry as env) = .ok as[i]? := by
  rw [Frame.get?]
  split
  · next hLt =>
      have hLess : i < as.length := hLt
      rw [filledStorage, if_neg (List.ne_nil_of_length_pos (Nat.zero_lt_of_lt hLess)),
        filledFrame, look_lodged entry hLess, List.getElem?_eq_getElem hLess]
      rfl
  · next hGe =>
      have hLe : as.length ≤ i := Nat.le_of_not_lt hGe
      rw [List.getElem?_eq_none hLe]

/-- The environment after a table has been dropped: all its entries, in order, and then the block,
if there is one, which is given back. -/
def emptied (drop : α → Environment → Environment) (as : List α) (env : Environment) :
    Environment :=
  if as = [] then env
  else (as.foldl (fun env a => drop a env) env).release (entry.array (roomFor as.length))

/-- A table that is dropped drops its entries in order and then gives its block back. -/
theorem dispose_eq_emptied (drop : α → Environment → Environment) (as : List α)
    (env : Environment) :
    Table.dispose entry drop ⟨as.toArray, roomFor as.length⟩ env = emptied entry drop as env := by
  rw [Table.dispose, Table.release, List.foldl_toArray, emptied]
  by_cases hNone : as = []
  · subst hNone
    rfl
  · have hSome : roomFor as.length ≠ 0 :=
      mt roomFor_eq_zero_iff.mp (mt List.length_eq_zero_iff.mp hNone)
    rw [if_neg hSome, if_neg hNone]

theorem length_filledStorage (as : List α) (env : Environment) :
    (filledStorage entry as env).blocks.length = blockCount as.length := by
  rw [filledStorage, blockCount]
  by_cases hNone : as = []
  · subst hNone
    rfl
  · rw [if_neg hNone, if_neg (mt List.length_eq_zero_iff.mp hNone), lodged, List.length_append,
      List.length_replicate]
    rfl

/-- No entry is left in its cell when the block is given back. -/
theorem dispose_filled (drop : α → Environment → Environment) (as : List α) (env : Environment) :
    (filledFrame as.length).dispose entry drop (filledStorage entry as env) =
      .ok ⟨emptied entry drop as env, List.replicate (blockCount as.length) none⟩ := by
  rw [emptied, filledStorage, blockCount]
  by_cases hNone : as = []
  · subst hNone
    rfl
  · have hLength : as.length ≠ 0 := mt List.length_eq_zero_iff.mp hNone
    have hSome : roomFor as.length ≠ 0 := mt roomFor_eq_zero_iff.mp hLength
    have hDrop := Storage.dropEntries_ebbing drop env (doublings as.length)
      (entry.array (roomFor as.length)) 0 (roomFor as.length - as.length) as
    have hLodged : lodged entry (doublings as.length) (roomFor as.length) as env =
        .ebbing env (doublings as.length) (entry.array (roomFor as.length)) 0
          (roomFor as.length - as.length) as := rfl
    have hEmpty : List.replicate as.length none ++ (([] : List α).map some ++
        List.replicate (roomFor as.length - as.length) none) =
          List.replicate (roomFor as.length) none := by
      rw [List.map_nil, List.nil_append, List.replicate_append_replicate,
        Nat.add_sub_cancel' (le_roomFor as.length)]
    rw [if_neg hNone, if_neg hNone, if_neg hLength, hLodged, filledFrame, Frame.dispose, hDrop,
      Nat.zero_add]
    simp only [bind, Except.bind, if_neg hSome]
    rw [Storage.ebbing, hEmpty, List.replicate_succ']
    exact Storage.giveBack_middle List.length_replicate _

/-- Then the account of the memory is even. -/
theorem ledger_emptied {drop : α → Environment → Environment}
    (hDrop : ∀ a env, (drop a env).resource = env.resource) {l : Ledger} {inner : Resource}
    (hEnv : env.resource = .counting l inner) (hSize : entry.size ≠ 0)
    (accounts : Accounts entry as.length l) :
    ∃ l' inner', (emptied entry drop as env).resource = .counting l' inner' ∧
      l'.allocations = l'.deallocations ∧ l'.liveBytes = 0 := by
  have hDrops : (as.foldl (fun env a => drop a env) env).resource = env.resource := by
    clear accounts hEnv
    induction as generalizing env with
    | nil => rfl
    | cons a as ih => exact ih.trans (hDrop a env)
  have hAllocations := accounts.allocations_eq
  have hDeallocations := accounts.deallocations_eq
  have hLive := accounts.liveBytes_eq
  rw [emptied]
  by_cases hNone : as = []
  · subst hNone
    refine ⟨l, inner, hEnv, ?_, ?_⟩
    · rw [hAllocations, hDeallocations]
      rfl
    · rw [hLive]
      exact Nat.zero_mul _
  · have hLength : as.length ≠ 0 := mt List.length_eq_zero_iff.mp hNone
    have hCount : blockCount as.length = doublings as.length + 1 := if_neg hLength
    have hBlock : (entry.array (roomFor as.length)).size ≠ 0 :=
      Nat.mul_ne_zero hSize (mt roomFor_eq_zero_iff.mp hLength)
    obtain ⟨inner', hRelease⟩ := Effect.counting_act Effect.keepsMemory_unit
      (e := .giveBack (entry.array (roomFor as.length))) (hDrops.trans hEnv)
      fun _ hBlock => by cases hBlock
    rw [if_neg hNone]
    refine ⟨_, inner', hRelease, ?_, ?_⟩
    · rw [Effect.charge, if_neg hBlock]
      change l.allocations = l.deallocations + 1
      rw [hAllocations, hDeallocations, hCount, Nat.add_sub_cancel]
    · rw [Effect.charge, if_neg hBlock]
      change l.liveBytes - entry.size * roomFor as.length = 0
      rw [hLive, Nat.mul_comm, Nat.sub_self]

end

/-- The table, the storage and the account, when a new table has been filled with these entries. -/
structure Filled (entry : Layout) (as : List α) (env : Environment) (f : Frame) (s : Storage α) :
    Prop where
  /-- The table and the environment are those of the pushes alone. -/
  fill_eq : fill entry as env = (⟨as.toArray, f.capacity⟩, s.env)
  size_eq : f.size = as.length
  get?_eq : ∀ i, (fill entry as env).1.get? i = as[i]? ∧ f.get? i s = .ok as[i]?
  capacity_eq : f.capacity = roomFor as.length
  capacity_nil : as = [] → f.capacity = 0
  capacity_doubled : as ≠ [] → f.capacity = 4 * 2 ^ doublings as.length
  isLeast_capacity : as ≠ [] →
    IsLeast {capacity | as.length ≤ capacity ∧ ∃ k, capacity = 4 * 2 ^ k} f.capacity
  blocks_nil : as = [] → s.blocks = []
  /-- The blocks of the smaller capacities have been given back. The last one is out, and has the
  entries in its first cells. -/
  blocks_eq : as ≠ [] → s.blocks = List.replicate (doublings as.length) none ++
    [some ⟨entry.array f.capacity, as.map some ++ List.replicate (f.capacity - as.length) none⟩]
  env_eq : s.env = Effect.replay (course entry as.length) env
  obtained_eq : Effect.obtained (course entry as.length) =
    (List.range s.blocks.length).map (blockAfter entry)
  /-- Each block but the last one, once and under its own layout. -/
  returned_eq : Effect.returned (course entry as.length) =
    (List.range (s.blocks.length - 1)).map (blockAfter entry)
  ledger : ∃ l inner, s.env.resource = .counting l inner ∧ Accounts entry as.length l
  /-- Dropping it comes to the same for the table and in the storage, where no block is left. -/
  dispose_eq : ∀ drop, Table.dispose entry drop (fill entry as env).1 s.env =
      emptied entry drop as s.env ∧
    f.dispose entry drop s = .ok ⟨emptied entry drop as s.env, List.replicate s.blocks.length none⟩
  /-- If the drops of the entries leave the memory alone. -/
  ledger_dispose : ∀ drop, (∀ a env, (drop a env).resource = env.resource) →
    ∃ l inner, (emptied entry drop as s.env).resource = .counting l inner ∧
      l.allocations = l.deallocations ∧ l.liveBytes = 0

/-- A new table is filled, or the memory does not suffice. -/
theorem filled_or_breaks_off {entry : Layout} (hSize : entry.size ≠ 0) (as : List α)
    {env : Environment} {inner : Resource} (hEnv : env.resource = .counting {} inner) :
    (Affordable entry as.length env →
      ∃ f s, Frame.fill entry as env = .ok (f, s) ∧ Filled entry as env f s) ∧
    (¬Affordable entry as.length env →
      ∃ breach, breach.OfMemory ∧ Frame.fill entry as env = .error breach) := by
  refine ⟨fun affordable => ?_, fill_of_not_affordable entry⟩
  refine ⟨_, _, fill_of_affordable entry affordable, ?_⟩
  obtain ⟨inner', hResource⟩ :=
    Effect.counting_replay Effect.keepsMemory_unit hEnv affordable.granted
  have accounts := accounts_course hSize as.length
  have hStorage := env_filledStorage entry as (Effect.replay (course entry as.length) env)
  have hBlocks := length_filledStorage entry as (Effect.replay (course entry as.length) env)
  constructor
  case fill_eq => rw [hStorage]; exact fill_eq entry as env
  case size_eq => rfl
  case get?_eq =>
    intro i
    rw [fill_eq]
    exact ⟨List.getElem?_toArray, get?_filled entry i⟩
  case capacity_eq => rfl
  case capacity_nil =>
    rintro rfl
    rfl
  case capacity_doubled => exact fun h => roomFor_eq (mt List.length_eq_zero_iff.mp h)
  case isLeast_capacity => exact fun h => isLeast_roomFor (mt List.length_eq_zero_iff.mp h)
  case blocks_nil =>
    rintro rfl
    rfl
  case blocks_eq =>
    intro h
    rw [filledStorage, if_neg h]
    rfl
  case env_eq => exact hStorage
  case obtained_eq => rw [hBlocks]; exact obtained_course entry as.length
  case returned_eq => rw [hBlocks]; exact returned_course entry as.length
  case ledger => rw [hStorage]; exact ⟨_, inner', hResource, accounts⟩
  case dispose_eq =>
    intro drop
    rw [hStorage, hBlocks, fill_eq]
    exact ⟨dispose_eq_emptied entry drop as _, dispose_filled entry drop as _⟩
  case ledger_dispose =>
    intro drop hDrop
    rw [hStorage]
    exact ledger_emptied entry hDrop hResource hSize accounts

/-- Nine entries are in a block for sixteen, the third one. -/
theorem filled_nine :
    let env : Environment := { resource := (Resource.ofPolicy fun _ _ _ => true).counted }
    ∃ f s, Frame.fill ⟨24, 8⟩ (List.range 9) env = .ok (f, s) ∧
      Filled ⟨24, 8⟩ (List.range 9) env f s ∧ f.capacity = 16 ∧ s.blocks.length = 3 := by
  intro env
  have generous : env.resource.Generous := fun _ _ _ => rfl
  have hDoublings : doublings 9 = 2 := by decide +kernel
  have affordable : Affordable ⟨24, 8⟩ (List.range 9).length env :=
    ⟨fun _ => by decide +kernel, Effect.granted_of_generous Effect.keepsMemory_unit generous _⟩
  obtain ⟨f, s, hFill, filled⟩ :=
    (filled_or_breaks_off (by decide : (⟨24, 8⟩ : Layout).size ≠ 0) (List.range 9) rfl).1 affordable
  have hCapacity := filled.capacity_doubled (by decide)
  have hBlocks := filled.blocks_eq (by decide)
  rw [List.length_range, hDoublings] at hCapacity hBlocks
  exact ⟨f, s, hFill, filled, hCapacity, by rw [hBlocks]; rfl⟩

end TaskMemory.Table

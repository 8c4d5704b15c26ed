import TaskMemory.Proofs.Pool.Step

/-!
What the steps of a run add up to. The blocks that are out are those of the slabs and of the
directory; the values dropped are those that the book has seen go that way; and every value that a
construction has put into the pool is either in the book or has gone once.
-/
namespace TaskMemory.Pool

variable {α : Type}

/-- The number of the construction of a value that has gone from the pool. -/
def Farewell.birth? : Farewell α → Option Nat
  | .dropped birth _ | .taken birth _ => some birth
  | .refused _ => none

/-- A value that has gone by being dropped. -/
def Farewell.dropped? : Farewell α → Option α
  | .dropped _ v | .refused v => some v
  | .taken _ _ => none

/-- The numbers of the values that have gone from the pool. -/
def Book.gone (b : Book α) : List Nat := b.farewells.filterMap Farewell.birth?

/-- The numbers of the values that can be used. -/
def Book.present (b : Book α) : List Nat := b.contents.map Holding.birth

/-- Every value that was put into the pool has gone once or can be used. -/
def Book.Complete (b : Book α) : Prop := (b.gone ++ b.present).Perm (List.range b.births)

/-- What is found in the book is present, and the others stay without it. -/
theorem Book.present_perm {b : Book α} {r : Holding α} (h : b.find? r.handle = some r) :
    b.present.Perm (r.birth :: (b.without r.handle).map Holding.birth) :=
  (Book.contents_perm h).2.map Holding.birth

/-- A value that leaves the book is gone, and nothing is lost. -/
theorem Book.complete_of_without {b b' : Book α} {r : Holding α} (h : b.find? r.handle = some r)
    (hGone : b'.gone = b.gone ++ [r.birth]) (hPresent : b'.contents = b.without r.handle)
    (hBirths : b'.births = b.births) (complete : b.Complete) : b'.Complete := by
  have hPerm : (b'.gone ++ b'.present).Perm (b.gone ++ b.present) := by
    rw [hGone, present, hPresent, List.append_assoc]
    exact (Book.present_perm h).symm.append_left b.gone
  rw [Complete, hBirths]
  exact hPerm.trans complete

/-- The numbers of the values whose drop is running or has ended in a fault. -/
def Book.parting (b : Book α) : List Nat := (b.closing ++ b.spent).map Holding.birth

/-- The drop of a value begins once, and the value is gone from then on. -/
structure Book.Orderly (b : Book α) : Prop where
  complete : b.Complete
  once : b.parting.Nodup
  gone : ∀ birth ∈ b.parting, birth ∈ b.gone

/-- No value goes twice. -/
theorem Book.Orderly.count_gone {b : Book α} (orderly : b.Orderly) {birth : Nat}
    (h : birth ∈ b.gone) : b.gone.count birth = 1 := by
  have hNodup := orderly.complete.nodup_iff.mpr List.nodup_range
  exact List.count_eq_one_of_mem (List.nodup_append.mp hNodup).1 h

/-- A value that is gone cannot be used. -/
theorem Book.Orderly.ne_of_gone {b : Book α} (orderly : b.Orderly) {birth other : Nat}
    (h : birth ∈ b.gone) (hOther : other ∈ b.present) : birth ≠ other := by
  have hNodup := orderly.complete.nodup_iff.mpr List.nodup_range
  exact (List.nodup_append.mp hNodup).2.2 birth h other hOther

variable [Stored α] {m m' : Moment α} {es : List (Effect α)} {p q : Pool α}

theorem blocks_congr (hCount : q.slabCount = p.slabCount) (hStorage : q.slabStorage = p.slabStorage)
    (hCapacity : q.directory.capacity = p.directory.capacity) : q.blocks = p.blocks := by
  simp only [blocks, directoryBlock, hCount, hStorage, hCapacity]

/-- A further slab comes with its block, and the directory may move to a larger one. -/
theorem account_append (p : Pool α) :
    Effect.account (.obtain p.slabStorage :: p.growth) p.blocks = some p.append.blocks := by
  have hSlabs : p.append.blocks = p.slabStorage ::ₘ
      (Multiset.replicate p.slabCount p.slabStorage + p.append.directoryBlock) := by
    rw [blocks, slabCount_append, Multiset.replicate_succ, Multiset.cons_add]
    rfl
  rw [hSlabs]
  by_cases hFull : p.directory.size = p.directory.capacity
  · have hNext : Table.nextCapacity p.directory.capacity ≠ 0 := by
      rw [Table.nextCapacity]
      split <;> omega
    have hAfter : p.append.directoryBlock =
        [directoryEntry.array (Table.nextCapacity p.directory.capacity)] := by
      simp [directoryBlock, append, hFull, hNext]
    by_cases hEmpty : p.directory.capacity = 0
    · rw [hAfter, growth, if_pos hFull, blocks, directoryBlock, if_pos hEmpty]
      simp only [Effect.account, Effect.enter, List.map_nil, List.foldlM_cons, List.foldlM_nil,
        Option.bind_eq_bind, Option.bind_some, Option.pure_def, Multiset.coe_singleton,
        Multiset.coe_nil, ← Multiset.singleton_add, Option.some.injEq]
      ac_rfl
    · rw [hAfter, growth, if_pos hFull, blocks, directoryBlock, if_neg hEmpty, List.map_singleton,
        Multiset.coe_singleton, Multiset.coe_singleton, Effect.account_move]
  · have hAfter : p.append.directoryBlock = p.directoryBlock := by
      simp [directoryBlock, append, hFull]
    rw [hAfter, growth, if_neg hFull]
    rfl

/-- A step obtains and gives back what the pool has more and less afterwards. -/
theorem Step.account_eq (step : Step m es m') :
    Effect.account es m.pool.blocks = some m'.pool.blocks := by
  cases step with
  | probe => exact Effect.account_probe _ _
  | announce => rfl
  | reject => rfl
  | append => exact account_append _
  | claim => exact congrArg some (blocks_congr (slabCount_mapSlab ..) rfl rfl).symm
  | reclaim => exact congrArg some (blocks_congr (slabCount_mapSlab ..) rfl rfl).symm
  | publish => exact congrArg some (blocks_congr (slabCount_mapSlab ..) rfl rfl).symm
  | edit => exact congrArg some (blocks_congr (slabCount_mapSlab ..) rfl rfl).symm
  | take =>
      exact congrArg some
        (blocks_congr ((slabCount_update ..).trans (slabCount_reclaim ..)) rfl rfl).symm
  | close => exact congrArg some (blocks_congr (slabCount_mapSlab ..) rfl rfl).symm
  | settle => exact congrArg some (blocks_congr (slabCount_mapSlab ..) rfl rfl).symm
  | spoil => exact congrArg some (blocks_congr (slabCount_mapSlab ..) rfl rfl).symm

/-- Along any steps the blocks that are out are those of the pool. -/
theorem Steps.account_eq (steps : Steps m es m') :
    Effect.account es m.pool.blocks = some m'.pool.blocks := by
  induction steps with
  | zero => rfl
  | succ prior last ih => rw [Effect.account_append_of_eq_some ih, last.account_eq]

omit [Stored α] in
theorem dropped_growth (p : Pool α) : Effect.dropped (p.growth : List (Effect α)) = [] := by
  rw [growth, directoryBlock]
  split
  · split <;> rfl
  · rfl

/-- A step drops the values that it enters as gone that way. -/
theorem Step.farewells_eq (step : Step m es m') :
    m'.book.farewells.filterMap Farewell.dropped? =
      m.book.farewells.filterMap Farewell.dropped? ++ Effect.dropped es := by
  cases step with
  | reject unwinding v => exact List.filterMap_append
  | take => simp [Book.handOut, Farewell.dropped?, Effect.dropped]
  | close => exact List.filterMap_append
  | @append p =>
      have hNone : Effect.dropped (.obtain p.slabStorage :: p.growth : List (Effect α)) = [] :=
        dropped_growth p
      rw [hNone, List.append_nil]
      rfl
  | _ => exact (List.append_nil _).symm

/-- The book takes down the drops along any steps. -/
theorem Steps.farewells_eq (steps : Steps m es m') :
    m'.book.farewells.filterMap Farewell.dropped? =
      m.book.farewells.filterMap Farewell.dropped? ++ Effect.dropped es := by
  induction steps with
  | zero => exact (List.append_nil _).symm
  | succ prior last ih => rw [last.farewells_eq, ih, Effect.dropped_append, List.append_assoc]

/-- A step lets values come and go one at a time. -/
theorem Step.complete (step : Step m es m') (h : m.book.Complete) : m'.book.Complete := by
  cases step with
  | @publish p b claims site v =>
      have hNew : (b.leave.lodge (p.handle site) v).gone ++
          (b.leave.lodge (p.handle site) v).present = b.gone ++ b.present ++ [b.births] := by
        simp [Book.gone, Book.present, Book.lodge, Book.leave]
      rw [Book.Complete, hNew]
      exact (h.append_right [b.births]).trans (List.Perm.of_eq List.range_succ.symm)
  | @edit p b claims r hFind v =>
      have hPresent : (b.store r v).present.Perm b.present := by
        rw [Book.present, Book.store, List.map_append]
        exact (List.perm_append_singleton _ _).trans (Book.present_perm hFind).symm
      exact (hPresent.append_left b.gone).trans h
  | take hFind => exact Book.complete_of_without hFind List.filterMap_append rfl rfl h
  | close hFind => exact Book.complete_of_without hFind List.filterMap_append rfl rfl h
  | @reject p b claims unwinding v =>
      have hGone : (b.refuse v).gone = b.gone := by
        simp [Book.gone, Book.refuse, Farewell.birth?]
      rw [Book.Complete, hGone]
      exact h
  | _ => exact h

theorem Steps.complete (steps : Steps m es m') (h : m.book.Complete) : m'.book.Complete := by
  induction steps with
  | zero => exact h
  | succ prior last ih => exact last.complete ih

theorem Step.gone_subset (step : Step m es m') : m.book.gone ⊆ m'.book.gone := by
  have hMore : ∀ (b : Book α) (farewells : List (Farewell α)),
      b.gone ⊆ (b.farewells ++ farewells).filterMap Farewell.birth? := by
    intro b farewells
    rw [List.filterMap_append]
    exact List.subset_append_left _ _
  cases step with
  | reject => exact hMore _ _
  | take => exact hMore _ _
  | close => exact hMore _ _
  | _ => exact fun birth h => h

/-- A step begins the drop of a value that can be used, or ends the innermost drop; a drop that ends
in a fault leaves something of its value behind. -/
theorem Step.parting_cases (step : Step m es m') :
    m'.book.parting.Perm m.book.parting ∨
    (∃ birth, m.book.parting = birth :: m'.book.parting) ∨
    ∃ birth ∈ m.book.present, m'.book.parting = birth :: m.book.parting ∧
      birth ∈ m'.book.gone := by
  cases step with
  | @close p b claims r hFind =>
      refine Or.inr (Or.inr ⟨r.birth, ?_, rfl, ?_⟩)
      · exact List.mem_map_of_mem (List.mem_of_find?_eq_some hFind)
      · simp [Book.gone, Book.close, Farewell.birth?]
  | @settle p b claims r closing hClosing =>
      exact Or.inr (Or.inl ⟨r.birth, by simp [Book.parting, Book.settle, hClosing]⟩)
  | @spoil p b claims r closing hClosing rest =>
      refine Or.inl ?_
      have hBefore : b.parting = r.birth :: (closing ++ b.spent).map Holding.birth := by
        simp [Book.parting, hClosing]
      have hAfter : (b.spoil { r with value := rest }).parting =
          (closing ++ b.spent).map Holding.birth ++ [r.birth] := by
        simp [Book.parting, Book.spoil, hClosing]
      rw [hBefore, hAfter]
      exact List.perm_append_singleton _ _
  | _ => exact Or.inl (List.Perm.refl _)

/-- Every step keeps the book in order: a value goes once, and only if it was there. -/
theorem Step.orderly (step : Step m es m') (h : m.book.Orderly) : m'.book.Orderly := by
  have hGone : ∀ birth ∈ m.book.parting, birth ∈ m'.book.gone :=
    fun birth hBirth => step.gone_subset (h.gone birth hBirth)
  suffices hParting : m'.book.parting.Nodup ∧ ∀ birth ∈ m'.book.parting, birth ∈ m'.book.gone from
    ⟨step.complete h.complete, hParting.1, hParting.2⟩
  rcases step.parting_cases with hPerm | ⟨ended, hEnd⟩ | ⟨begun, hPresent, hBegin, hBegun⟩
  · exact ⟨hPerm.nodup_iff.mpr h.once, fun birth hBirth => hGone birth (hPerm.mem_iff.mp hBirth)⟩
  · have hOnce := h.once
    rw [hEnd] at hOnce hGone
    exact ⟨(List.nodup_cons.mp hOnce).2, fun birth hBirth =>
      hGone birth (List.mem_cons_of_mem _ hBirth)⟩
  · rw [hBegin]
    refine ⟨List.nodup_cons.mpr ⟨?_, h.once⟩, ?_⟩
    · exact fun hMem => h.ne_of_gone (h.gone begun hMem) hPresent rfl
    · intro birth hBirth
      rcases List.mem_cons.mp hBirth with rfl | hBirth
      · exact hBegun
      · exact hGone birth hBirth

theorem Steps.orderly (steps : Steps m es m') (h : m.book.Orderly) : m'.book.Orderly := by
  induction steps with
  | zero => exact h
  | succ prior last ih => exact last.orderly ih

theorem Steps.gone_subset (steps : Steps m es m') : m.book.gone ⊆ m'.book.gone := by
  induction steps with
  | zero => exact fun birth h => h
  | succ prior last ih => exact fun birth h => last.gone_subset (ih h)

/-- A value whose drop has ended without a fault is not dropped again. -/
theorem Steps.not_mem_parting (steps : Steps m es m') (orderly : m.book.Orderly) {birth : Nat}
    (hGone : birth ∈ m.book.gone) (h : birth ∉ m.book.parting) : birth ∉ m'.book.parting := by
  induction steps with
  | zero => exact h
  | @succ m' m'' es es' prior last ih =>
      have before := prior.orderly orderly
      rcases last.parting_cases with hPerm | ⟨ended, hEnd⟩ | ⟨begun, hPresent, hBegin, _⟩
      · exact fun hMem => ih (hPerm.mem_iff.mp hMem)
      · exact fun hMem => ih (hEnd ▸ List.mem_cons_of_mem _ hMem)
      · rw [hBegin, List.mem_cons, not_or]
        exact ⟨before.ne_of_gone (prior.gone_subset hGone) hPresent, ih⟩

omit [Stored α] in
/-- Values that are held are others than the one that is not. -/
theorem Book.birth_ne_of_held {b : Book α} {birth : Nat} (hPresent : birth ∉ b.present)
    (hParting : birth ∉ b.parting) {other : Holding α} (h : other ∈ b.held) :
    other.birth ≠ birth := by
  rintro rfl
  rw [Book.held, List.append_assoc, List.mem_append] at h
  rcases h with h | h
  · exact hPresent (List.mem_map_of_mem h)
  · exact hParting (List.mem_map_of_mem h)

/-- Such a value has gone once, and the book does not tell of it any more. -/
theorem Steps.stays_gone (steps : Steps m es m') (orderly : m.book.Orderly) {birth : Nat}
    (hGone : birth ∈ m.book.gone) (h : birth ∉ m.book.parting) :
    m'.book.gone.count birth = 1 ∧ ∀ other ∈ m'.book.held, other.birth ≠ birth := by
  have after := steps.orderly orderly
  have hStill : birth ∈ m'.book.gone := steps.gone_subset hGone
  have hPresent : birth ∉ m'.book.present := fun hMem => after.ne_of_gone hStill hMem rfl
  have hParting := steps.not_mem_parting orderly hGone h
  exact ⟨after.count_gone hStill, fun other hOther =>
    Book.birth_ne_of_held hPresent hParting hOther⟩

/-- What a drop has left behind stays where it is. -/
theorem Step.spent_subset (step : Step m es m') : m.book.spent ⊆ m'.book.spent := by
  cases step with
  | spoil => exact List.subset_append_left _ _
  | _ => exact fun r h => h

/-- What is left of a value whose drop broke off stays in its slot. -/
theorem Steps.spent_subset (steps : Steps m es m') : m.book.spent ⊆ m'.book.spent := by
  induction steps with
  | zero => exact fun r h => h
  | succ prior last ih => exact fun r h => last.spent_subset (ih h)

end TaskMemory.Pool

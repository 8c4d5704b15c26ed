import Mathlib.Algebra.BigOperators.Fin
import TaskMemory.Pool.Basic
import TaskMemory.Proofs.Handle.Packing
import TaskMemory.Proofs.Pool.FreeList

/-!
Which slots of a pool are taken. `Pool.Tidy` says that in every slab the free list holds just the
slots that are not taken. Each step on a pool that runs no user code takes one slot, gives one back
or changes the content of a taken one; it leaves the content of every other taken slot alone.
-/
namespace TaskMemory

theorem Place.mk_eq_iff {site : Place} {slab offset : Nat} :
    ⟨slab, offset⟩ = site ↔ slab = site.slab ∧ offset = site.offset := by
  cases site
  simp

theorem Place.eq_iff {site other : Place} :
    other = site ↔ site.slab = other.slab ∧ site.offset = other.offset := by
  cases site
  simp [← Place.mk_eq_iff, eq_comm]

/-- What is found in a list, and what is left without it, make up the list. -/
theorem perm_of_find? {β : Type} {l : List β} {q : β → Bool} {b : β} (hFind : l.find? q = some b) :
    q b = true ∧ l.Perm (b :: l.eraseP q) := by
  obtain ⟨hMatch, front, rest, rfl, hFront⟩ := List.find?_eq_some_iff_append.mp hFind
  have hErase : (front ++ b :: rest).eraseP q = front ++ rest := by
    rw [List.eraseP_append_right _ (by simpa using hFront), List.eraseP_cons_of_pos hMatch]
  rw [hErase]
  exact ⟨hMatch, List.perm_middle⟩

namespace Pool

variable {α : Type} {p : Pool α} {taken : Place → Prop} {site other : Place} {i : Nat}

/-- The free lists of a pool, when these places are taken. -/
structure Tidy (p : Pool α) (taken : Place → Prop) : Prop where
  within : ∀ site, taken site → site.slab < p.slabCount ∧ site.offset < p.slabCapacity
  size : ∀ k slab, p.directory.get? k = some slab → slab.slots.size = p.slabCapacity
  listed : ∀ k slab, p.directory.get? k = some slab →
    ∃ free, slab.Listed (fun i => taken ⟨k, i⟩) free

theorem get?_mapSlab (p : Pool α) (i k : Nat) (change : Slab α → Slab α) :
    (p.mapSlab i change).directory.get? k =
      if i = k then (p.directory.get? k).map change else p.directory.get? k :=
  Array.getElem?_modify

@[simp] theorem slabCount_mapSlab (p : Pool α) (i : Nat) (change : Slab α → Slab α) :
    (p.mapSlab i change).slabCount = p.slabCount :=
  Array.size_modify

@[simp] theorem slabCount_update (p : Pool α) (site : Place) (change : Slot α → Slot α) :
    (p.update site change).slabCount = p.slabCount :=
  slabCount_mapSlab ..

@[simp] theorem slabCount_reclaim (p : Pool α) (site : Place) :
    (p.reclaim site).slabCount = p.slabCount :=
  slabCount_mapSlab ..

@[simp] theorem slabCapacity_mapSlab (p : Pool α) (i : Nat) (change : Slab α → Slab α) :
    (p.mapSlab i change).slabCapacity = p.slabCapacity := rfl

@[simp] theorem live_mapSlab (p : Pool α) (i : Nat) (change : Slab α → Slab α) :
    (p.mapSlab i change).live = p.live := rfl

@[simp] theorem live_update (p : Pool α) (site : Place) (change : Slot α → Slot α) :
    (p.update site change).live = p.live := rfl

@[simp] theorem live_reclaim (p : Pool α) (site : Place) : (p.reclaim site).live = p.live := rfl

/-- A change of one slab that changes one of its slots changes that slot of the pool. What is looked
at in a slot may be less than the slot. -/
theorem map_slot?_mapSlab {β : Type} (p : Pool α) (site : Place) (change : Slab α → Slab α)
    (look changed : Slot α → β) (h : ∀ slab, p.directory.get? site.slab = some slab → ∀ k,
      (change slab).slots[k]?.map look =
        if site.offset = k then slab.slots[k]?.map changed else slab.slots[k]?.map look)
    (other : Place) : ((p.mapSlab site.slab change).slot? other).map look =
      if other = site then (p.slot? other).map changed else (p.slot? other).map look := by
  rw [slot?, get?_mapSlab, slot?]
  by_cases hSlab : site.slab = other.slab
  · rw [if_pos hSlab]
    cases hGet : p.directory.get? other.slab with
    | none => simp
    | some slab =>
        have hSlots := h slab (hSlab ▸ hGet) other.offset
        simpa [Place.eq_iff, hSlab] using hSlots
  · rw [if_neg hSlab, if_neg (fun hEq => hSlab (Place.eq_iff.mp hEq).1)]

theorem slabCapacity_lt (p : Pool α) : p.slabCapacity < 2 ^ 32 := p.codec.slabCapacity.toNat_lt

theorem get?_lt {k : Nat} {slab : Slab α} (h : p.directory.get? k = some slab) :
    k < p.slabCount :=
  (Array.getElem?_eq_some_iff.mp h).1

theorem exists_get? {k : Nat} (h : k < p.slabCount) : ∃ slab, p.directory.get? k = some slab :=
  ⟨p.directory.items[k], Array.getElem?_eq_getElem h⟩

/-- A slab and a number within the pool make a slot. -/
theorem Tidy.exists_slot (tidy : p.Tidy taken) (hSlab : site.slab < p.slabCount)
    (hOffset : site.offset < p.slabCapacity) : ∃ slot, p.slot? site = some slot := by
  obtain ⟨slab, hGet⟩ := exists_get? hSlab
  have hSize := tidy.size _ _ hGet
  refine ⟨slab.slots[site.offset], ?_⟩
  rw [slot?, hGet, Option.bind_some, Array.getElem?_eq_getElem]

/-- A pool is tidy in view of which slots are taken, however that is said. -/
theorem Tidy.congr {taken' : Place → Prop} (tidy : p.Tidy taken)
    (h : ∀ site, taken site ↔ taken' site) : p.Tidy taken' := by
  obtain rfl : taken = taken' := funext fun site => propext (h site)
  exact tidy

/-- The slab of a change within one slab: the lists of the other slabs stand as they are. -/
theorem Tidy.mapSlab {taken' : Place → Prop} (tidy : p.Tidy taken) {k : Nat}
    {change : Slab α → Slab α}
    (hWithin : ∀ site, taken' site → taken site ∨ site.slab < p.slabCount ∧
      site.offset < p.slabCapacity)
    (hOther : ∀ site, site.slab ≠ k → (taken' site ↔ taken site))
    (hSize : ∀ slab, (change slab).slots.size = slab.slots.size)
    (hListed : ∀ slab free, p.directory.get? k = some slab →
      slab.Listed (fun i => taken ⟨k, i⟩) free →
      ∃ free', (change slab).Listed (fun i => taken' ⟨k, i⟩) free') :
    (p.mapSlab k change).Tidy taken' where
  within site h := by
    rw [slabCount_mapSlab, slabCapacity_mapSlab]
    exact (hWithin site h).elim (tidy.within site) id
  size i slab h := by
    rw [get?_mapSlab] at h
    split at h
    · obtain ⟨before, hBefore, rfl⟩ := Option.map_eq_some_iff.mp h
      rw [hSize]
      exact tidy.size _ _ hBefore
    · exact tidy.size _ _ h
  listed i slab h := by
    rw [get?_mapSlab] at h
    split at h
    · next hEq =>
        subst hEq
        obtain ⟨before, hBefore, rfl⟩ := Option.map_eq_some_iff.mp h
        obtain ⟨free, listed⟩ := tidy.listed _ _ hBefore
        exact hListed before free hBefore listed
    · next hNe =>
        obtain ⟨free, listed⟩ := tidy.listed _ _ h
        exact ⟨free, listed.congr fun j => (hOther ⟨i, j⟩ (Ne.symm hNe)).symm⟩

/-- A place is the lowest free slot of its slab. -/
def Offers (p : Pool α) (site : Place) : Prop :=
  ∃ slab, p.directory.get? site.slab = some slab ∧ slab.head = some site.offset

/-- The place that is used next is the lowest free slot of its slab. -/
theorem offers_vacancy (h : p.vacancy? = some site) : p.Offers site := by
  rw [vacancy?, Option.bind_eq_some_iff] at h
  obtain ⟨i, _, h⟩ := h
  obtain ⟨offset, hHead, rfl⟩ := Option.map_eq_some_iff.mp h
  exact Option.bind_eq_some_iff.mp hHead

/-- No slab before that one has a free slot. -/
theorem head_of_lt_vacancy (h : p.vacancy? = some site) {k : Nat} {slab : Slab α}
    (hLt : k < site.slab) (hGet : p.directory.get? k = some slab) : slab.head = none := by
  rw [vacancy?, Option.bind_eq_some_iff] at h
  obtain ⟨i, hFind, h⟩ := h
  obtain ⟨offset, _, rfl⟩ := Option.map_eq_some_iff.mp h
  obtain ⟨hSize, -, hBefore⟩ := Array.findIdx?_eq_some_iff_getElem.mp hFind
  obtain ⟨_, rfl⟩ := Array.getElem?_eq_some_iff.mp hGet
  simpa using hBefore k hLt

/-- A pool in which no place can be used next has no free slots. -/
theorem vacancy?_eq_none (h : p.vacancy? = none) {k : Nat} {slab : Slab α}
    (hGet : p.directory.get? k = some slab) : slab.head = none := by
  rw [vacancy?, Option.bind_eq_none_iff] at h
  cases hFind : p.directory.items.findIdx? (·.head.isSome) with
  | none =>
      have := Array.findIdx?_eq_none_iff.mp hFind slab (Array.mem_of_getElem? hGet)
      simpa using this
  | some i =>
      obtain ⟨hLt, hHead, _⟩ := Array.findIdx?_eq_some_iff_getElem.mp hFind
      have hNone := h i hFind
      rw [Array.getElem?_eq_getElem hLt, Option.bind_some, Option.map_eq_none_iff] at hNone
      rw [hNone] at hHead
      cases hHead

/-- The slab and the list of a slot that can be taken. -/
theorem Tidy.exists_listed (tidy : p.Tidy taken) (h : p.Offers site) :
    ∃ slab free, p.directory.get? site.slab = some slab ∧
      slab.Listed (fun i => taken ⟨site.slab, i⟩) (site.offset :: free) := by
  obtain ⟨slab, hGet, hHead⟩ := h
  obtain ⟨free, listed⟩ := tidy.listed _ _ hGet
  cases free with
  | nil =>
      have := listed.threads
      rw [hHead] at this
      cases this
  | cons i free =>
      have hStart := listed.threads.1
      rw [hHead, Option.some.injEq] at hStart
      exact ⟨slab, free, hGet, hStart ▸ listed⟩

/-- A slot that is offered is one of the pool and is not taken. -/
theorem Tidy.not_taken (tidy : p.Tidy taken) (h : p.Offers site) :
    ¬ taken site ∧ site.slab < p.slabCount ∧ site.offset < p.slabCapacity := by
  obtain ⟨slab, free, hGet, listed⟩ := tidy.exists_listed h
  obtain ⟨hLt, hFree⟩ := (listed.mem_iff site.offset).mp List.mem_cons_self
  rw [tidy.size _ _ hGet] at hLt
  exact ⟨hFree, get?_lt hGet, hLt⟩

/-- A free slot that has been found can be taken: the count of its list is not zero. -/
theorem Tidy.claim_eq (tidy : p.Tidy taken) (h : p.Offers site) :
    p.claim site = (.ok site, p.mapSlab site.slab Slab.unlink) := by
  obtain ⟨slab, free, hGet, listed⟩ := tidy.exists_listed h
  have hCount : slab.freeCount ≠ 0 := by simp [listed.count]
  simp [claim, hGet, hCount]

/-- A slot that is offered may be claimed, and it is taken from then on. -/
theorem Tidy.unlink (tidy : p.Tidy taken) (h : p.Offers site) :
    (p.mapSlab site.slab Slab.unlink).Tidy (fun other => taken other ∨ other = site) := by
  obtain ⟨hFree, hWithin⟩ := tidy.not_taken h
  obtain ⟨slab, free, hGet, listed⟩ := tidy.exists_listed h
  apply tidy.mapSlab
  · rintro other (h | rfl)
    · exact Or.inl h
    · exact Or.inr hWithin
  · intro other hNe
    simp only [or_iff_left_iff_imp]
    rintro rfl
    exact absurd rfl hNe
  · exact Slab.size_unlink
  · intro slab' free' hGet' _
    obtain rfl : slab' = slab := Option.some.inj (hGet'.symm.trans hGet)
    exact ⟨free, listed.unlink.congr fun i => by simp [Place.mk_eq_iff]⟩

/-- Taking a slot marks it and touches no other one. -/
theorem Tidy.slot?_unlink (tidy : p.Tidy taken) (h : p.Offers site) (other : Place) :
    (p.mapSlab site.slab Slab.unlink).slot? other =
      if other = site then (p.slot? other).map Slot.claim else p.slot? other := by
  obtain ⟨slab, free, hGet, listed⟩ := tidy.exists_listed h
  have hSlots := map_slot?_mapSlab p site Slab.unlink id Slot.claim ?_ other
  · simpa using hSlots
  · intro slab' hGet' k
    obtain rfl : slab' = slab := Option.some.inj (hGet'.symm.trans hGet)
    simpa using listed.getElem?_unlink k

/-- A slot that is taken is in a slab with a free list of its own. -/
theorem Tidy.taken_slab (tidy : p.Tidy taken) (h : taken site) :
    ∃ slab free, p.directory.get? site.slab = some slab ∧
      slab.Listed (fun i => taken ⟨site.slab, i⟩) free ∧ site.offset < slab.slots.size := by
  obtain ⟨hSlab, hOffset⟩ := tidy.within site h
  obtain ⟨slab, hGet⟩ := exists_get? hSlab
  obtain ⟨free, listed⟩ := tidy.listed _ _ hGet
  exact ⟨slab, free, hGet, listed, by rw [tidy.size _ _ hGet]; exact hOffset⟩

/-- A place of the pool is on its free list exactly if it is not taken. -/
theorem Tidy.isFree_iff (tidy : p.Tidy taken) (hSlab : site.slab < p.slabCount)
    (hOffset : site.offset < p.slabCapacity) : p.isFree site = true ↔ ¬ taken site := by
  obtain ⟨slab, hGet⟩ := exists_get? hSlab
  obtain ⟨free, listed⟩ := tidy.listed _ _ hGet
  rw [isFree, hGet, Option.any_some, listed.isFree_iff, listed.mem_iff, tidy.size _ _ hGet]
  exact and_iff_right hOffset

/-- A slot that is taken is not found free. -/
theorem Tidy.isFree_of_taken (tidy : p.Tidy taken) (h : taken site) : p.isFree site = false := by
  obtain ⟨hSlab, hOffset⟩ := tidy.within site h
  rw [← Bool.not_eq_true, tidy.isFree_iff hSlab hOffset, not_not]
  exact h

/-- A slot that is taken may come back, and it is free from then on. -/
theorem Tidy.reclaim (tidy : p.Tidy taken) (hRoom : p.slabCapacity < 2 ^ 32) (h : taken site) :
    (p.reclaim site).Tidy (fun other => taken other ∧ other ≠ site) := by
  obtain ⟨slab, free, hGet, listed, hLt⟩ := tidy.taken_slab h
  apply tidy.mapSlab
  · exact fun other hOther => Or.inl hOther.1
  · intro other hNe
    simp only [and_iff_left_iff_imp]
    rintro _ rfl
    exact hNe rfl
  · exact fun slab => Slab.size_link slab site.offset
  · intro slab' free' hGet' _
    obtain rfl : slab' = slab := Option.some.inj (hGet'.symm.trans hGet)
    have hSize : slab'.slots.size < 2 ^ 32 := by rwa [tidy.size _ _ hGet]
    exact ⟨_, (listed.link h hLt hSize).congr fun i => by simp [Place.mk_eq_iff]⟩

/-- Giving a slot back leaves the other taken slots alone. -/
theorem Tidy.slot?_reclaim (tidy : p.Tidy taken) (h : taken site) (hOther : taken other)
    (hNe : other ≠ site) : (p.reclaim site).slot? other = p.slot? other := by
  obtain ⟨slab, free, hGet, listed, _⟩ := tidy.taken_slab h
  rw [Pool.reclaim, slot?, get?_mapSlab, slot?]
  by_cases hSlab : site.slab = other.slab
  · rw [if_pos hSlab, ← hSlab, hGet]
    apply listed.getElem?_link_of_taken h
    · rwa [hSlab]
    · exact fun hEq => hNe (Place.eq_iff.mpr ⟨hSlab, hEq⟩)
  · rw [if_neg hSlab]

/-- Giving a slot back ends the claim on it; otherwise it keeps whose the slots are. -/
theorem Tidy.flags_reclaim (tidy : p.Tidy taken) (h : taken site) (other : Place) :
    ((p.reclaim site).slot? other).map Slot.flags =
      if other = site then (p.slot? other).map fun slot => (false, slot.live)
      else (p.slot? other).map Slot.flags := by
  obtain ⟨slab, free, hGet, listed, _⟩ := tidy.taken_slab h
  apply map_slot?_mapSlab
  intro slab' hGet' k
  obtain rfl : slab' = slab := Option.some.inj (hGet'.symm.trans hGet)
  exact listed.flags_link h k

/-- A value may be noted as gone before its slot is given back or after that. -/
theorem update_retire_reclaim (p : Pool α) (site : Place) :
    (p.reclaim site).update site Slot.retire = (p.update site Slot.retire).reclaim site := by
  have hItems : ((p.directory.items.modify site.slab (·.link site.offset)).modify site.slab
      (·.update site.offset Slot.retire)) =
      (p.directory.items.modify site.slab (·.update site.offset Slot.retire)).modify site.slab
        (·.link site.offset) := by
    apply Array.ext_getElem?
    intro k
    simp only [Array.getElem?_modify]
    split <;> cases p.directory.items[k]? <;> simp [Slab.update_retire_link]
  simp only [Pool.reclaim, Pool.update, mapSlab, Table.modify, hItems]

/-- To change a taken slot leaves the free lists as they are. -/
theorem Tidy.update (tidy : p.Tidy taken) (h : taken site) (change : Slot α → Slot α) :
    (p.update site change).Tidy taken := by
  apply tidy.mapSlab
  · exact fun other hOther => Or.inl hOther
  · exact fun other _ => Iff.rfl
  · exact fun slab => Slab.size_update slab site.offset change
  · exact fun slab free _ listed => ⟨free, listed.update h change⟩

theorem slot?_update (p : Pool α) (site other : Place) (change : Slot α → Slot α) :
    (p.update site change).slot? other =
      if other = site then (p.slot? other).map change else p.slot? other := by
  have hSlots := map_slot?_mapSlab p site (·.update site.offset change) id change
    (fun slab _ k => by simpa using slab.getElem?_update site.offset k change) other
  simpa [Pool.update] using hSlots

/-- A pool with a further slab, whose first slot is taken. -/
def append (p : Pool α) : Pool α :=
  { p with directory := {
      items := p.directory.items.push (Slab.fresh p.slabCapacity).unlink
      capacity := if p.directory.size = p.directory.capacity
        then Table.nextCapacity p.directory.capacity else p.directory.capacity } }

/-- The directory with the further slab is what `push` makes of it. -/
theorem fst_push (p : Pool α) (env : Environment) :
    (p.directory.push directoryEntry (Slab.fresh p.slabCapacity).unlink env).1 =
      p.append.directory := by
  by_cases hFull : p.directory.items.size = p.directory.capacity
  · simp [Table.push, Table.grow, append, Table.size, hFull]
  · simp [Table.push, append, Table.size, hFull]

/-- The new slab is behind all others, and its first slot is claimed. -/
theorem get?_append (p : Pool α) (k : Nat) : p.append.directory.get? k =
    if k = p.slabCount then some (Slab.fresh p.slabCapacity).unlink
    else p.directory.get? k :=
  Array.getElem?_push

@[simp] theorem slabCount_append (p : Pool α) : p.append.slabCount = p.slabCount + 1 :=
  Array.size_push ..

@[simp] theorem slabCapacity_append (p : Pool α) : p.append.slabCapacity = p.slabCapacity := rfl

@[simp] theorem live_append (p : Pool α) : p.append.live = p.live := rfl

theorem listed_first (hPos : 0 < p.slabCapacity) (hRoom : p.slabCapacity < 2 ^ 32) :
    ∃ free, (Slab.fresh p.slabCapacity : Slab α).Listed (fun _ => False) (0 :: free) := by
  have listed := Slab.listed_fresh (α := α) hRoom
  obtain ⟨n, hn⟩ := Nat.exists_eq_succ_of_ne_zero hPos.ne'
  rw [hn, List.range_succ_eq_map] at listed
  rw [hn]
  exact ⟨_, listed⟩

/-- A pool that grows is tidy, with the first slot of the new slab taken. -/
theorem Tidy.append (tidy : p.Tidy taken) (hPos : 0 < p.slabCapacity)
    (hRoom : p.slabCapacity < 2 ^ 32) :
    p.append.Tidy (fun other => taken other ∨ other = ⟨p.slabCount, 0⟩) where
  within other h := by
    rw [slabCount_append, slabCapacity_append]
    rcases h with h | rfl
    · have := tidy.within other h
      exact ⟨Nat.lt_succ_of_lt this.1, this.2⟩
    · exact ⟨Nat.lt_succ_self _, hPos⟩
  size k slab h := by
    rw [get?_append] at h
    split at h
    · obtain rfl := Option.some.inj h
      simp
    · exact tidy.size k slab h
  listed k slab h := by
    rw [get?_append] at h
    split at h
    · next hLast =>
        subst hLast
        obtain rfl := Option.some.inj h
        obtain ⟨free, listed⟩ := listed_first (p := p) hPos hRoom
        refine ⟨free, listed.unlink.congr fun i => ?_⟩
        have hNew : ¬ taken ⟨p.slabCount, i⟩ := fun h => Nat.lt_irrefl _ (tidy.within _ h).1
        simp [hNew]
    · next hOld =>
        obtain ⟨free, listed⟩ := tidy.listed k slab h
        exact ⟨free, listed.congr fun i => by simp [hOld]⟩

theorem slot?_append_of_lt (h : other.slab < p.slabCount) :
    p.append.slot? other = p.slot? other := by
  rw [slot?, get?_append, if_neg (Nat.ne_of_lt h), slot?]

/-- In a new slab the first slot is claimed and no other one. -/
theorem flags_append (hPos : 0 < p.slabCapacity) (hRoom : p.slabCapacity < 2 ^ 32)
    {slot : Slot α} (h : p.append.slot? ⟨p.slabCount, i⟩ = some slot) :
    slot.flags = (decide (i = 0), false) := by
  obtain ⟨free, listed⟩ := listed_first (p := p) hPos hRoom
  rw [slot?, get?_append, if_pos rfl, Option.bind_some, listed.getElem?_unlink] at h
  by_cases hFirst : 0 = i
  · rw [if_pos hFirst, Option.map_eq_some_iff] at h
    obtain ⟨before, hBefore, rfl⟩ := h
    have hLive := congrArg Prod.snd (Slab.fresh_slot hBefore)
    subst hFirst
    exact Prod.ext rfl hLive
  · rw [if_neg hFirst] at h
    rw [Slab.fresh_slot h, decide_eq_false (Ne.symm hFirst)]

/-- The free slots of a slab and the taken ones make up its capacity. -/
theorem Tidy.freeCount_add_countP {places : List Place} (tidy : p.Tidy (· ∈ places))
    (distinct : places.Nodup) {k : Nat} {slab : Slab α} (h : p.directory.get? k = some slab) :
    slab.freeCount + places.countP (·.slab = k) = p.slabCapacity := by
  obtain ⟨free, listed⟩ := tidy.listed k slab h
  let held := (places.filter (·.slab = k)).map Place.offset
  have hHeld : ∀ i, i ∈ held ↔ ⟨k, i⟩ ∈ places := by
    intro i
    simp only [held, List.mem_map, List.mem_filter, decide_eq_true_eq]
    constructor
    · rintro ⟨site, ⟨hMem, rfl⟩, rfl⟩
      exact hMem
    · exact fun hMem => ⟨_, ⟨hMem, rfl⟩, rfl⟩
  have hNodup : held.Nodup := by
    apply (distinct.filter _).map_on
    intro site hSite other hOther hEq
    simp only [List.mem_filter, decide_eq_true_eq] at hSite hOther
    exact Place.eq_iff.mpr ⟨hOther.2.trans hSite.2.symm, hEq.symm⟩
  have hPerm : (free ++ held).Perm (List.range p.slabCapacity) := by
    rw [List.perm_ext_iff_of_nodup _ List.nodup_range]
    · intro i
      have hSize := tidy.size k slab h
      rw [List.mem_append, listed.mem_iff, hHeld, hSize, List.mem_range]
      have hWithin : (⟨k, i⟩ : Place) ∈ places → i < p.slabCapacity :=
        fun hMem => (tidy.within _ hMem).2
      tauto
    · rw [List.nodup_append]
      refine ⟨listed.ascending.imp Nat.ne_of_lt, hNodup, ?_⟩
      rintro i hFree j hj rfl
      exact ((listed.mem_iff i).mp hFree).2 ((hHeld i).mp hj)
  have hLength := hPerm.length_eq
  rw [List.length_append, List.length_map, List.length_range, ← List.countP_eq_length_filter]
    at hLength
  rw [listed.count, hLength]

/-- Places counted slab by slab are all places. -/
theorem sum_countP_slab {n : Nat} {places : List Place} (h : ∀ site ∈ places, site.slab < n) :
    ∑ k : Fin n, places.countP (·.slab = k.val) = places.length := by
  induction places with
  | nil => simp
  | cons site rest ih =>
      have hRest := ih fun other hOther => h other (List.mem_cons_of_mem _ hOther)
      have hSite : ∑ k : Fin n, (if site.slab = k.val then 1 else 0) = 1 := by
        rw [Finset.sum_eq_single (⟨site.slab, h site List.mem_cons_self⟩ : Fin n)]
        · simp
        · exact fun k _ hNe => if_neg fun hEq => hNe (Fin.ext hEq.symm)
        · simp
      simp only [List.countP_cons, decide_eq_true_eq, Finset.sum_add_distrib, hRest, hSite,
        List.length_cons]

/-- The free slots of a pool are those of its slabs. -/
theorem freeSlots_eq_sum (p : Pool α) :
    p.freeSlots = ∑ k : Fin p.slabCount, p.directory.items[k].freeCount := by
  rw [freeSlots, ← Array.foldl_toList, ← List.foldl_map, ← List.sum_eq_foldl]
  exact (Fin.sum_univ_fun_getElem p.directory.items.toList Slab.freeCount).symm

/-- Every slot of a pool is free or taken. -/
theorem Tidy.freeSlots_add_length {places : List Place} (tidy : p.Tidy (· ∈ places))
    (distinct : places.Nodup) : p.freeSlots + places.length = p.capacity := by
  rw [freeSlots_eq_sum, ← sum_countP_slab fun site hSite => (tidy.within site hSite).1,
    ← Finset.sum_add_distrib, capacity]
  have hEach : ∀ k : Fin p.slabCount, p.directory.items[k].freeCount +
      places.countP (·.slab = k.val) = p.slabCapacity := fun k =>
    tidy.freeCount_add_countP distinct (Array.getElem?_eq_getElem k.isLt)
  exact (Finset.sum_congr rfl fun k _ => hEach k).trans (by simp)

/-- A list without a first slot has no slots. -/
theorem Tidy.freeCount_eq_zero (tidy : p.Tidy taken) {k : Nat} {slab : Slab α}
    (hGet : p.directory.get? k = some slab) (hHead : slab.head = none) : slab.freeCount = 0 := by
  obtain ⟨free, listed⟩ := tidy.listed k slab hGet
  cases free with
  | nil => exact listed.count
  | cons i free =>
      have hStart := listed.threads.1
      rw [hHead] at hStart
      cases hStart

/-- Where there is no vacancy no slot is free. -/
theorem Tidy.freeSlots_eq_zero (tidy : p.Tidy taken) (h : p.vacancy? = none) :
    p.freeSlots = 0 := by
  rw [freeSlots_eq_sum]
  apply Finset.sum_eq_zero
  intro k _
  have hGet : p.directory.get? k = some p.directory.items[k] := Array.getElem?_eq_getElem k.isLt
  exact tidy.freeCount_eq_zero hGet (vacancy?_eq_none h hGet)

theorem slabCapacity_pos {offsetBits slabBits : Nat} (packs : p.codec.Packs offsetBits slabBits) :
    0 < p.slabCapacity := by
  rw [slabCapacity, packs.toNat_slabCapacity]
  exact Nat.two_pow_pos offsetBits

/-- The block of a slab is never empty, so that it is asked for. -/
theorem slabStorage_size_ne_zero [Stored α] {offsetBits slabBits : Nat}
    (packs : p.codec.Packs offsetBits slabBits) : p.slabStorage.size ≠ 0 := by
  have hSlot : 4 ≤ (Stored.slot α).size := Stored.room_for_link
  exact Nat.mul_ne_zero (by omega) (Nat.ne_of_gt (slabCapacity_pos packs))

/-- A handle has 32 bits, so there are not more slots than that. -/
theorem capacity_le {offsetBits slabBits : Nat} (packs : p.codec.Packs offsetBits slabBits)
    (hWithin : p.slabCount ≤ p.codec.maxSlabs.toNat) : p.capacity ≤ 2 ^ 32 := by
  have hSlabs : p.slabCount ≤ 2 ^ slabBits := hWithin.trans packs.maxSlabs
  calc p.capacity
      ≤ 2 ^ slabBits * 2 ^ offsetBits := by
        rw [capacity, slabCapacity, packs.toNat_slabCapacity]
        exact Nat.mul_le_mul_right _ hSlabs
    _ = 2 ^ (slabBits + offsetBits) := (Nat.pow_add ..).symm
    _ ≤ 2 ^ 32 := Nat.pow_le_pow_right (by decide) (by have := packs.width; omega)

/-- A new pool has nothing but its options. -/
theorem create_eq {o : PoolOptions} {p : Pool α} (h : Pool.create o = .ok p) :
    ∃ codec, o.validate = .ok codec ∧ p = { codec, limit := o.limit } := by
  rw [Pool.create] at h
  cases hMake : o.validate with
  | error cause =>
      rw [hMake] at h
      cases h
  | ok codec =>
      rw [hMake] at h
      exact ⟨codec, rfl, (Except.ok.inj h).symm⟩

/-- A handle reads back as the slot it was made of. -/
theorem place_handle {offsetBits slabBits : Nat} (packs : p.codec.Packs offsetBits slabBits)
    (hSlab : site.slab < p.codec.maxSlabs.toNat) (hOffset : site.offset < p.slabCapacity) :
    p.place (p.handle site) = site := by
  have hWidth := packs.width
  have hLt : site.slab < 2 ^ slabBits := hSlab.trans_le packs.maxSlabs
  rw [slabCapacity, packs.toNat_slabCapacity] at hOffset
  have hSlabs : 2 ^ slabBits ≤ 2 ^ 32 := Nat.pow_le_pow_right (by decide) (by omega)
  have hOffsets : 2 ^ offsetBits ≤ 2 ^ 32 := Nat.pow_le_pow_right (by decide) (by omega)
  have hSlabNat : site.slab.toUInt32.toNat = site.slab := by
    rw [Nat.toUInt32_eq, UInt32.toNat_ofNat', Nat.mod_eq_of_lt (by omega)]
  have hOffsetNat : site.offset.toUInt32.toNat = site.offset := by
    rw [Nat.toUInt32_eq, UInt32.toNat_ofNat', Nat.mod_eq_of_lt (by omega)]
  rw [place, handle, packs.slab_encode (by rwa [hSlabNat]) (by rwa [hOffsetNat]),
    packs.offset_encode (by rwa [hSlabNat]) (by rwa [hOffsetNat]), hSlabNat, hOffsetNat]

end Pool
end TaskMemory

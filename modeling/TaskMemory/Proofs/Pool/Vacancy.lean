import TaskMemory.Proofs.Pool.Invariant

/-!
The slots of a pool, one by one. The free lists say of each slot whether it is free; so they divide
all slots of the pool into the vacant ones and the occupied ones. The occupied ones are those that
have tenants. The slot that is used next is the vacant one with the smallest handle.
-/
namespace TaskMemory.Pool

variable {α : Type} {p q : Pool α} {site other : Place} {taken : Place → Prop}

/-- All slots, slab by slab. -/
def places (p : Pool α) : List Place :=
  (List.range p.slabCount).flatMap fun k => (List.range p.slabCapacity).map (⟨k, ·⟩)

/-- The slots that are on the free lists. -/
def vacant (p : Pool α) : List Place := p.places.filter (p.isFree ·)

/-- The slots that are off the free lists. -/
def occupied (p : Pool α) : List Place := p.places.filter (!p.isFree ·)

theorem mem_places : site ∈ p.places ↔ site.slab < p.slabCount ∧ site.offset < p.slabCapacity := by
  obtain ⟨slab, offset⟩ := site
  simp [places]

theorem nodup_places : p.places.Nodup := by
  rw [places, List.nodup_flatMap]
  constructor
  · intro k _
    exact List.nodup_range.map fun i j hEq => congrArg Place.offset hEq
  · apply List.nodup_range.imp
    intro k k' hNe
    rw [Function.onFun, List.disjoint_left]
    simp only [List.mem_map]
    rintro _ ⟨i, _, rfl⟩ ⟨j, _, hEq⟩
    exact hNe (congrArg Place.slab hEq).symm

theorem length_places : p.places.length = p.capacity := by
  simp [places, capacity, List.length_flatMap]

theorem mem_vacant : site ∈ p.vacant ↔ site ∈ p.places ∧ p.isFree site = true := List.mem_filter

/-- A place is occupied if its slot is not free. -/
theorem mem_occupied : site ∈ p.occupied ↔ site ∈ p.places ∧ p.isFree site = false := by
  rw [occupied, List.mem_filter, Bool.not_eq_true']

theorem nodup_occupied : p.occupied.Nodup := nodup_places.filter _

/-- Every slot is vacant or occupied. -/
theorem length_vacant_add_occupied : p.vacant.length + p.occupied.length = p.capacity := by
  rw [vacant, occupied, ← length_places, ← List.length_eq_length_filter_add]

/-- In a tidy pool the occupied places are those that are taken. -/
theorem Tidy.mem_occupied_iff (tidy : p.Tidy taken) : site ∈ p.occupied ↔ taken site := by
  rw [mem_occupied, mem_places]
  constructor
  · rintro ⟨⟨hSlab, hOffset⟩, hFree⟩
    by_contra hNot
    rw [(tidy.isFree_iff hSlab hOffset).mpr hNot] at hFree
    cases hFree
  · exact fun h => ⟨tidy.within site h, tidy.isFree_of_taken h⟩

/-- In a tidy pool the vacant places are all others. -/
theorem Tidy.mem_vacant_iff (tidy : p.Tidy taken) :
    site ∈ p.vacant ↔ site ∈ p.places ∧ ¬ taken site := by
  rw [mem_vacant]
  exact and_congr_right fun h => tidy.isFree_iff (mem_places.mp h).1 (mem_places.mp h).2

/-- A vacant slot is on the free list of its slab. -/
theorem Tidy.exists_free (tidy : p.Tidy taken) (hVacant : site ∈ p.vacant) :
    ∃ slab, ∃ free : List Nat, p.directory.get? site.slab = some slab ∧ slab.head = free.head? ∧
      free.Pairwise (· < ·) ∧ site.offset ∈ free := by
  obtain ⟨hPlace, hFree⟩ := tidy.mem_vacant_iff.mp hVacant
  obtain ⟨slab, hGet⟩ := exists_get? (mem_places.mp hPlace).1
  obtain ⟨free, listed⟩ := tidy.listed _ _ hGet
  refine ⟨slab, free, hGet, listed.threads.start_eq, listed.ascending, ?_⟩
  rw [listed.mem_iff, tidy.size _ _ hGet]
  exact ⟨(mem_places.mp hPlace).2, hFree⟩

/-- The slab of a vacant slot has a first free slot. -/
theorem Tidy.head_ne_none (tidy : p.Tidy taken) (hVacant : site ∈ p.vacant) {slab : Slab α}
    (hGet : p.directory.get? site.slab = some slab) : slab.head ≠ none := by
  obtain ⟨slab', free, hGet', hHead, _, hMem⟩ := tidy.exists_free hVacant
  obtain rfl : slab' = slab := Option.some.inj (hGet'.symm.trans hGet)
  rw [hHead, ne_eq, List.head?_eq_none_iff]
  exact List.ne_nil_of_mem hMem

/-- The vacancy that a construction finds is vacant. -/
theorem Tidy.vacancy_mem (tidy : p.Tidy taken) (hVacancy : p.vacancy? = some site) :
    site ∈ p.vacant := by
  obtain ⟨hFree, hWithin⟩ := tidy.not_taken (offers_vacancy hVacancy)
  exact tidy.mem_vacant_iff.mpr ⟨mem_places.mpr hWithin, hFree⟩

/-- The slot that is used next is the first one of all vacant slots. -/
theorem Tidy.first_of_vacancy (tidy : p.Tidy taken) (hVacancy : p.vacancy? = some site)
    (hOther : other ∈ p.vacant) (hNe : other ≠ site) :
    site.slab < other.slab ∨ site.slab = other.slab ∧ site.offset < other.offset := by
  obtain ⟨slab, free, hGet, hHead, ascending, hMem⟩ := tidy.exists_free hOther
  obtain hLt | hEq | hGt := Nat.lt_trichotomy site.slab other.slab
  · exact Or.inl hLt
  · obtain ⟨slab', hGet', hFirst⟩ := offers_vacancy hVacancy
    rw [hEq] at hGet'
    obtain rfl : slab' = slab := Option.some.inj (hGet'.symm.trans hGet)
    rw [hFirst] at hHead
    obtain ⟨rest, rfl⟩ := List.head?_eq_some_iff.mp hHead.symm
    have hOffset : other.offset ≠ site.offset := fun h => hNe (Place.eq_iff.mpr ⟨hEq, h.symm⟩)
    have hRest := (List.mem_cons.mp hMem).resolve_left hOffset
    exact Or.inr ⟨hEq, (List.pairwise_cons.mp ascending).1 _ hRest⟩
  · exact absurd (head_of_lt_vacancy hVacancy hGt hGet) (tidy.head_ne_none hOther hGet)

/-- There is a slot that is used next if any slot is vacant. -/
theorem Tidy.vacancy?_eq_none_iff (tidy : p.Tidy taken) : p.vacancy? = none ↔ p.vacant = [] := by
  constructor
  · intro hVacancy
    by_contra hSome
    obtain ⟨site, hSite⟩ := List.exists_mem_of_ne_nil _ hSome
    obtain ⟨slab, hGet⟩ := exists_get? (mem_places.mp (mem_vacant.mp hSite).1).1
    exact tidy.head_ne_none hSite hGet (vacancy?_eq_none hVacancy hGet)
  · intro hNone
    by_contra hSome
    obtain ⟨site, hVacancy⟩ := Option.ne_none_iff_exists'.mp hSome
    have hMem := tidy.vacancy_mem hVacancy
    rw [hNone] at hMem
    cases hMem

/-- A slot that is claimed is occupied. -/
theorem Tidy.mem_occupied_unlink (tidy : p.Tidy taken) (h : p.Offers site) :
    other ∈ (p.mapSlab site.slab Slab.unlink).occupied ↔ other = site ∨ other ∈ p.occupied := by
  rw [(tidy.unlink h).mem_occupied_iff, tidy.mem_occupied_iff, or_comm]

/-- In a new slab one slot is occupied, the first one. -/
theorem Tidy.mem_occupied_append (tidy : p.Tidy taken) (hPos : 0 < p.slabCapacity) :
    other ∈ p.append.occupied ↔ other = ⟨p.slabCount, 0⟩ ∨ other ∈ p.occupied := by
  rw [(tidy.append hPos p.slabCapacity_lt).mem_occupied_iff, tidy.mem_occupied_iff, or_comm]

theorem Tidy.mem_occupied_reclaim (tidy : p.Tidy taken) (h : taken site) :
    other ∈ (p.reclaim site).occupied ↔ other ∈ p.occupied ∧ other ≠ site := by
  rw [(tidy.reclaim p.slabCapacity_lt h).mem_occupied_iff, tidy.mem_occupied_iff]

/-- What is in a slot does not decide whether it is occupied. -/
theorem Tidy.mem_occupied_update (tidy : p.Tidy taken) (h : taken site)
    (change : Slot α → Slot α) : other ∈ (p.update site change).occupied ↔ other ∈ p.occupied := by
  rw [(tidy.update h change).mem_occupied_iff, tidy.mem_occupied_iff]

/-- Pools of the same size in which the same slots are occupied. -/
structure SameRoom (p q : Pool α) : Prop where
  codec : q.codec = p.codec
  slabs : q.slabCount = p.slabCount
  occupied : ∀ site, site ∈ q.occupied ↔ site ∈ p.occupied

namespace SameRoom

variable {taken' : Place → Prop}

theorem mem_vacant (same : SameRoom p q) (site : Place) :
    site ∈ q.vacant ↔ site ∈ p.vacant := by
  have hPlaces : site ∈ q.places ↔ site ∈ p.places := by
    rw [mem_places, mem_places, same.slabs, slabCapacity, same.codec, slabCapacity]
  have hOccupied := same.occupied site
  rw [mem_occupied, mem_occupied, hPlaces] at hOccupied
  rw [Pool.mem_vacant, Pool.mem_vacant, hPlaces, ← Bool.not_eq_false, ← Bool.not_eq_false]
  tauto

/-- Pools with the same room are at their limit together. -/
theorem atLimit_eq (same : SameRoom p q) : q.atLimit = p.atLimit := by
  rw [atLimit, same.codec, same.slabs, atLimit]

theorem place_eq (same : SameRoom p q) : q.place = p.place := by
  funext h
  rw [place, same.codec, place]

theorem handle_eq (same : SameRoom p q) : q.handle = p.handle := by
  funext site
  rw [handle, same.codec, handle]

/-- The slot that is used next depends on nothing else. -/
theorem vacancy?_eq (same : SameRoom p q) (tidy : p.Tidy taken) (tidy' : q.Tidy taken') :
    q.vacancy? = p.vacancy? := by
  cases hVacancy : p.vacancy? with
  | none =>
      rw [tidy'.vacancy?_eq_none_iff, List.eq_nil_iff_forall_not_mem]
      intro site hSite
      have hMem := (same.mem_vacant site).mp hSite
      rw [tidy.vacancy?_eq_none_iff.mp hVacancy] at hMem
      cases hMem
  | some site =>
      have hSite := (same.mem_vacant site).mpr (tidy.vacancy_mem hVacancy)
      cases hVacancy' : q.vacancy? with
      | none =>
          rw [tidy'.vacancy?_eq_none_iff.mp hVacancy'] at hSite
          cases hSite
      | some site' =>
          by_contra hNe
          have hNe : site ≠ site' := fun hEq => hNe (congrArg some hEq.symm)
          have hSite' := (same.mem_vacant site').mp (tidy'.vacancy_mem hVacancy')
          have hFirst := tidy.first_of_vacancy hVacancy hSite' hNe.symm
          have hFirst' := tidy'.first_of_vacancy hVacancy' hSite hNe
          omega

end SameRoom

variable [Stored α] {seats : List (Seat α)}

/-- A place is occupied by a construction or a value. -/
theorem Housed.mem_occupied_iff (housed : p.Housed seats) :
    site ∈ p.occupied ↔ site ∈ Seat.sites seats :=
  housed.tidy.mem_occupied_iff

/-- The occupied slots are those that have tenants. -/
theorem Housed.occupied_perm (housed : p.Housed seats) : p.occupied.Perm (Seat.sites seats) :=
  (List.perm_ext_iff_of_nodup nodup_occupied housed.distinct).mpr fun _ => housed.mem_occupied_iff

/-- There are as many occupied places as seats. -/
theorem Housed.length_occupied (housed : p.Housed seats) : p.occupied.length = seats.length := by
  rw [housed.occupied_perm.length_eq, List.length_map]

/-- The occupied places are those of the live values and of the constructions under way. -/
theorem Moment.Fits.length_occupied {m : Moment α} (fits : m.Fits) :
    m.pool.occupied.length = m.pool.live.toNat + m.book.inits := by
  rw [fits.housed.length_occupied, Moment.seats, List.length_append, List.length_map, fits.inits,
    fits.live, Nat.add_comm]

end TaskMemory.Pool

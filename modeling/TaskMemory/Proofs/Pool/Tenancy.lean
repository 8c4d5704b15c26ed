import TaskMemory.Proofs.Pool.Occupancy

/-!
Whose the slots of a pool are. A slot that is not free has a tenant: a construction that has not
put its value there, a value, a value that is being dropped, or what a drop that ended in a fault
left behind. `Pool.Housed` says that the tenants of a list have the slots they are said to have, no
two of them the same one, and that all other slots are free. A step on a pool lets one tenant in,
lets one out or changes one.
-/
namespace TaskMemory

/-- Who has a slot. -/
inductive Tenant (α : Type) where
  /-- A construction that has not put its value there yet. -/
  | claim
  | value (v : α)
  | leaving
  /-- What a drop that ended in a fault left behind. -/
  | rest (v : α)

/-- What the slot of a tenant looks like. -/
def Tenant.Fits {α : Type} [Stored α] : Tenant α → Slot α → Prop
  | .claim, slot => slot.flags = (true, false)
  | .value v, slot => slot.flags = (false, true) ∧ slot.read? = some v
  | .leaving, slot => slot.flags = (false, false)
  | .rest v, slot => slot.flags = (false, false) ∧ slot.read? = some v

/-- A slot and who has it. -/
structure Seat (α : Type) where
  site : Place
  tenant : Tenant α

abbrev Seat.sites {α : Type} (seats : List (Seat α)) : List Place := seats.map Seat.site

theorem Seat.mem_sites {α : Type} {seats : List (Seat α)} {seat : Seat α} (h : seat ∈ seats) :
    seat.site ∈ Seat.sites seats :=
  List.mem_map_of_mem h

theorem Slot.read?_write {α : Type} [Stored α] (slot : Slot α) (v : α) :
    (slot.write v).read? = some v := by
  simp [Slot.read?, Slot.write, Stored.withFirstWord_firstWord]

namespace Pool

variable {α : Type} [Stored α] {p : Pool α} {seats seats' : List (Seat α)} {site : Place}
  {t t' : Tenant α} {v : α}

/-- These tenants have their slots, and all other slots are free. -/
structure Housed (p : Pool α) (seats : List (Seat α)) : Prop where
  tidy : p.Tidy (· ∈ Seat.sites seats)
  distinct : (Seat.sites seats).Nodup
  fits : ∀ seat ∈ seats, ∃ slot, p.slot? seat.site = some slot ∧ seat.tenant.Fits slot
  idle : ∀ site slot, p.slot? site = some slot → site ∉ Seat.sites seats →
    slot.flags = (false, false)

theorem Housed.perm (housed : p.Housed seats) (h : seats.Perm seats') : p.Housed seats' where
  tidy := housed.tidy.congr fun _ => (h.map Seat.site).mem_iff
  distinct := (h.map Seat.site).nodup_iff.mp housed.distinct
  fits seat hSeat := housed.fits seat (h.mem_iff.mpr hSeat)
  idle other slot hSlot hFree :=
    housed.idle other slot hSlot fun hMem => hFree ((h.map Seat.site).mem_iff.mp hMem)

/-- A seat may be looked at before all others. -/
theorem Housed.front {others : List (Seat α)} {seat : Seat α} (housed : p.Housed (others ++ seats))
    (h : seats.Perm (seat :: seats')) : p.Housed (seat :: (others ++ seats')) :=
  housed.perm ((h.append_left others).trans List.perm_middle)

theorem Housed.back {others : List (Seat α)} {seat : Seat α}
    (housed : p.Housed (seat :: (others ++ seats'))) (h : (seat :: seats').Perm seats) :
    p.Housed (others ++ seats) :=
  housed.perm (List.perm_middle.symm.trans (h.append_left others))

theorem housed_empty (h : p.directory.items = #[]) : p.Housed [] where
  tidy := by
    constructor
    · simp
    · simp [Table.get?, h]
    · simp [Table.get?, h]
  distinct := List.nodup_nil
  fits := by simp
  idle := by simp [slot?, Table.get?, h]

/-- The counter says nothing about the seats. -/
theorem Housed.withLive (housed : p.Housed seats) (live : UInt64) :
    ({ p with live } : Pool α).Housed seats :=
  ⟨⟨housed.tidy.within, housed.tidy.size, housed.tidy.listed⟩, housed.distinct, housed.fits,
    housed.idle⟩

/-- No two seats have one place. -/
theorem Housed.ne_of_mem (housed : p.Housed (⟨site, t⟩ :: seats)) {other : Place}
    (h : other ∈ Seat.sites seats) : other ≠ site := by
  rintro rfl
  exact (List.nodup_cons.mp housed.distinct).1 h

/-- The value that a seat says is there can be used. -/
theorem Housed.exists_slot (housed : p.Housed seats) (hSeat : ⟨site, .value v⟩ ∈ seats) :
    site.slab < p.slabCount ∧
      ∃ slot, p.slot? site = some slot ∧ slot.live = true ∧ slot.read? = some v := by
  obtain ⟨slot, hSlot, hFlags, hRead⟩ := housed.fits _ hSeat
  exact ⟨(housed.tidy.within site (Seat.mem_sites hSeat)).1, slot, hSlot, congrArg Prod.snd hFlags,
    hRead⟩

/-- A value is read in its seat. -/
theorem Housed.value?_eq (housed : p.Housed seats) (hSeat : ⟨site, .value v⟩ ∈ seats) :
    p.value? site = some v := by
  obtain ⟨-, slot, hSlot, hLive, hRead⟩ := housed.exists_slot hSeat
  rw [value?, hSlot, Option.bind_some, if_pos hLive, hRead]

/-- A construction takes the slot that is offered. -/
theorem Housed.claim (housed : p.Housed seats) (h : p.Offers site) :
    (p.mapSlab site.slab Slab.unlink).Housed (⟨site, .claim⟩ :: seats) := by
  have hFree := (housed.tidy.not_taken h).1
  have hSlots := housed.tidy.slot?_unlink h
  constructor
  · exact (housed.tidy.unlink h).congr fun other => by simp [Seat.sites, or_comm]
  · exact List.nodup_cons.mpr ⟨hFree, housed.distinct⟩
  · intro seat hSeat
    rw [hSlots]
    rcases List.mem_cons.mp hSeat with rfl | hSeat
    · obtain ⟨hSlab, hOffset⟩ := (housed.tidy.not_taken h).2
      obtain ⟨slot, hSlot⟩ := housed.tidy.exists_slot hSlab hOffset
      have hFlags := housed.idle _ _ hSlot hFree
      rw [if_pos rfl, hSlot]
      have hLive : slot.live = false := congrArg Prod.snd hFlags
      exact ⟨slot.claim, rfl, Prod.ext rfl hLive⟩
    · have hNe : seat.site ≠ site := fun hEq => hFree (hEq ▸ Seat.mem_sites hSeat)
      rw [if_neg hNe]
      exact housed.fits seat hSeat
  · intro other slot hSlot hOther
    simp only [Seat.sites, List.map_cons, List.mem_cons, not_or] at hOther
    rw [hSlots, if_neg hOther.1] at hSlot
    exact housed.idle other slot hSlot hOther.2

/-- The first slot of a new slab gets a tenant. -/
theorem Housed.append (housed : p.Housed seats) (hPos : 0 < p.slabCapacity)
    (hRoom : p.slabCapacity < 2 ^ 32) :
    p.append.Housed (⟨⟨p.slabCount, 0⟩, .claim⟩ :: seats) := by
  have hOld : ∀ other ∈ Seat.sites seats, other.slab < p.slabCount :=
    fun other hOther => (housed.tidy.within other hOther).1
  have tidy : p.append.Tidy (· ∈ Seat.sites (⟨⟨p.slabCount, 0⟩, .claim⟩ :: seats)) :=
    (housed.tidy.append hPos hRoom).congr fun other => by simp [Seat.sites, or_comm]
  refine ⟨tidy, ?_, ?_, ?_⟩
  · exact List.nodup_cons.mpr ⟨fun h => Nat.lt_irrefl _ (hOld _ h), housed.distinct⟩
  · intro seat hSeat
    rcases List.mem_cons.mp hSeat with rfl | hSeat
    · have hWithin := tidy.within ⟨p.slabCount, 0⟩ List.mem_cons_self
      obtain ⟨slot, hSlot⟩ := tidy.exists_slot hWithin.1 hWithin.2
      exact ⟨slot, hSlot, flags_append hPos hRoom hSlot⟩
    · rw [slot?_append_of_lt (hOld _ (Seat.mem_sites hSeat))]
      exact housed.fits seat hSeat
  · intro other slot hSlot hOther
    simp only [Seat.sites, List.map_cons, List.mem_cons, not_or] at hOther
    by_cases hNew : other.slab = p.slabCount
    · obtain ⟨slab, offset⟩ := other
      obtain rfl : slab = p.slabCount := hNew
      have hFirst : offset ≠ 0 := fun h => hOther.1 (by rw [h])
      rw [flags_append hPos hRoom hSlot, decide_eq_false hFirst]
    · have hLt : other.slab < p.slabCount := by
        obtain ⟨slab, hSlab, _⟩ := Option.bind_eq_some_iff.mp hSlot
        have := get?_lt hSlab
        rw [slabCount_append] at this
        omega
      rw [slot?_append_of_lt hLt] at hSlot
      exact housed.idle other slot hSlot hOther.2

/-- The tenant of a slot changes together with what the slot looks like. -/
theorem Housed.update (housed : p.Housed (⟨site, t⟩ :: seats)) {change : Slot α → Slot α}
    (h : ∀ slot, t.Fits slot → t'.Fits (change slot)) :
    (p.update site change).Housed (⟨site, t'⟩ :: seats) := by
  constructor
  · exact housed.tidy.update List.mem_cons_self change
  · exact housed.distinct
  · intro seat hSeat
    rw [slot?_update]
    rcases List.mem_cons.mp hSeat with rfl | hSeat
    · obtain ⟨slot, hSlot, hFits⟩ := housed.fits _ List.mem_cons_self
      rw [if_pos rfl, hSlot]
      exact ⟨change slot, rfl, h slot hFits⟩
    · rw [if_neg (housed.ne_of_mem (Seat.mem_sites hSeat))]
      exact housed.fits seat (List.mem_cons_of_mem _ hSeat)
  · intro other slot hSlot hOther
    have hNe : other ≠ site := fun hEq => hOther (hEq ▸ List.mem_cons_self)
    rw [slot?_update, if_neg hNe] at hSlot
    exact housed.idle other slot hSlot hOther

/-- A seat is given up when its slot comes back. -/
theorem Housed.reclaim (housed : p.Housed (⟨site, t⟩ :: seats)) (hRoom : p.slabCapacity < 2 ^ 32)
    (h : ∀ slot, t.Fits slot → slot.live = false) : (p.reclaim site).Housed seats := by
  have hSite : site ∈ Seat.sites (⟨site, t⟩ :: seats) := List.mem_cons_self
  have hTaken : ∀ other ∈ Seat.sites seats, other ∈ Seat.sites (⟨site, t⟩ :: seats) :=
    fun other hOther => List.mem_cons_of_mem _ hOther
  constructor
  · apply (housed.tidy.reclaim hRoom hSite).congr
    intro other
    constructor
    · rintro ⟨hMem, hNe⟩
      exact (List.mem_cons.mp hMem).resolve_left hNe
    · exact fun hMem => ⟨hTaken other hMem, housed.ne_of_mem hMem⟩
  · exact (List.nodup_cons.mp housed.distinct).2
  · intro seat hSeat
    have hMem : seat.site ∈ Seat.sites seats := Seat.mem_sites hSeat
    rw [housed.tidy.slot?_reclaim hSite (hTaken _ hMem) (housed.ne_of_mem hMem)]
    exact housed.fits seat (List.mem_cons_of_mem _ hSeat)
  · intro other slot hSlot hOther
    have hFlags := housed.tidy.flags_reclaim hSite other
    rw [hSlot, Option.map_some] at hFlags
    split at hFlags
    · next hEq =>
        subst hEq
        obtain ⟨before, hBefore, hFits⟩ := housed.fits _ List.mem_cons_self
        rw [hBefore, Option.map_some, Option.some.injEq, h before hFits] at hFlags
        exact hFlags
    · next hNe =>
        obtain ⟨before, hBefore, hEq⟩ := Option.map_eq_some_iff.mp hFlags.symm
        rw [← hEq]
        exact housed.idle other before hBefore fun hMem =>
          (List.mem_cons.mp hMem).elim hNe hOther

/-- The handle of a slot that has a tenant reads back as that slot. -/
theorem Housed.place_handle (housed : p.Housed seats) {offsetBits slabBits : Nat}
    (packs : p.codec.Packs offsetBits slabBits) (hWithin : p.slabCount ≤ p.codec.maxSlabs.toNat)
    (hMem : site ∈ Seat.sites seats) : p.place (p.handle site) = site := by
  have hSite := housed.tidy.within site hMem
  exact Pool.place_handle packs (hSite.1.trans_le hWithin) hSite.2

/-- A pool in which a slot has been given back whose value is gone. -/
def recycled (p : Pool α) (site : Place) : Pool α :=
  { p.reclaim site with live := p.live - 1 }

/-- A slot that has a tenant can be given back. -/
theorem Housed.recycle_eq (housed : p.Housed (⟨site, t⟩ :: seats)) :
    p.recycle site = .ok (p.recycled site) := by
  have hFree := housed.tidy.isFree_of_taken List.mem_cons_self
  simp [recycle, recycled, hFree]

/-- A construction puts its value into its slot. -/
theorem Housed.publish (housed : p.Housed (⟨site, .claim⟩ :: seats)) (v : α) :
    (p.publish site v).Housed (⟨site, .value v⟩ :: seats) := by
  have hFits : ∀ slot, (Tenant.claim : Tenant α).Fits slot →
      (Tenant.value v).Fits (slot.publish v) := fun slot _ => ⟨rfl, slot.read?_write v⟩
  exact (housed.update hFits).withLive _

/-- A value may be exchanged in its seat. -/
theorem Housed.write (housed : p.Housed (⟨site, .value v⟩ :: seats)) (v' : α) :
    (p.update site (Slot.write v')).Housed (⟨site, .value v'⟩ :: seats) :=
  housed.update fun slot hFits => ⟨hFits.1, slot.read?_write v'⟩

/-- A value whose destruction begins is leaving. -/
theorem Housed.retire (housed : p.Housed (⟨site, .value v⟩ :: seats)) :
    (p.update site Slot.retire).Housed (⟨site, .leaving⟩ :: seats) := by
  apply housed.update
  intro slot hFits
  have hClaimed : slot.claimed = false := congrArg Prod.fst hFits.1
  exact Prod.ext hClaimed rfl

/-- The drop of a value ends in a fault. -/
theorem Housed.spoil (housed : p.Housed (⟨site, .leaving⟩ :: seats)) (rest : α) :
    (p.update site (Slot.write rest)).Housed (⟨site, .rest rest⟩ :: seats) :=
  housed.update fun slot hFits => ⟨hFits, slot.read?_write rest⟩

/-- A value that was leaving has left. -/
theorem Housed.recycled (housed : p.Housed (⟨site, .leaving⟩ :: seats)) :
    (p.recycled site).Housed seats :=
  (housed.reclaim p.slabCapacity_lt fun _ hFits => congrArg Prod.snd hFits).withLive _

omit [Stored α] in
/-- It makes no difference whether it is noted before or after its slot is given back that a value
is gone. -/
theorem update_retire_recycled (p : Pool α) (site : Place) :
    (p.recycled site).update site Slot.retire = (p.update site Slot.retire).recycled site :=
  congrArg (fun q : Pool α => { q with live := p.live - 1 }) (update_retire_reclaim p site)

/-- A value is moved out; its slot is given back before it is noted that the value is gone. -/
theorem Housed.take (housed : p.Housed (⟨site, .value v⟩ :: seats)) :
    ((p.recycled site).update site Slot.retire).Housed seats := by
  rw [update_retire_recycled]
  exact housed.retire.recycled

/-- Every slot of a pool is free or has a tenant. -/
theorem Housed.freeSlots_add_length (housed : p.Housed seats) :
    p.freeSlots + seats.length = p.capacity := by
  simpa using housed.tidy.freeSlots_add_length housed.distinct

end Pool
end TaskMemory

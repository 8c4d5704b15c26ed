import TaskMemory.Proofs.Pool.Step

/-!
The invariant of a pool. `Moment.Fits` says that the slots belong to those whom the book and the
constructions under way name, and that the free lists and the counts agree with that. Every step
keeps it, and from it follows what a program can observe: the pool answers what the book says.
-/
namespace TaskMemory.Pool

variable {α : Type} [Stored α] {m m' : Moment α} {es : List (Effect α)} {r : Holding α}

/-- The pool is as the book and the constructions under way say. -/
structure Moment.Fits (m : Moment α) : Prop where
  packs : ∃ offsetBits slabBits, m.pool.codec.Packs offsetBits slabBits
  within : m.pool.slabCount ≤ m.pool.codec.maxSlabs.toNat
  housed : m.pool.Housed m.seats
  live : m.pool.live.toNat = (m.book.seats m.pool.place).length
  inits : m.claims.length = m.book.inits

namespace Moment.Fits

variable (fits : m.Fits)

include fits

/-- The free slots, the values and the constructions under way make up all slots. -/
theorem live_add_freeSlots_add_inits :
    m.pool.live.toNat + m.pool.freeSlots + m.book.inits = m.pool.capacity := by
  have hCount := fits.housed.freeSlots_add_length
  rw [Moment.seats, List.length_append, List.length_map, fits.inits, ← fits.live] at hCount
  omega

/-- The counter has room for a value that has a slot but is not counted yet. -/
theorem toNat_live_add_one (h : m.claims ≠ []) :
    (m.pool.live + 1).toNat = m.pool.live.toNat + 1 := by
  have hCount := fits.live_add_freeSlots_add_inits
  obtain ⟨_, _, packs⟩ := fits.packs
  have hLe := capacity_le packs fits.within
  have hInits := fits.inits
  have hPos := List.length_pos_iff.mpr h
  rw [UInt64.toNat_add]
  change (m.pool.live.toNat + 1) % 2 ^ 64 = _
  rw [Nat.mod_eq_of_lt (by omega)]

/-- The counter does not fall below zero where a value is there to be counted off. -/
theorem toNat_live_sub_one {seat : Seat α} {rest : List (Seat α)}
    (h : (m.book.seats m.pool.place).Perm (seat :: rest)) :
    (m.pool.live - 1).toNat = rest.length := by
  have hLive := fits.live.trans h.length_eq
  rw [List.length_cons] at hLive
  rw [UInt64.toNat_sub_of_le _ _ (UInt64.le_iff_toNat_le.mpr (by change 1 ≤ _; omega)), hLive]
  rfl

/-- The slot of a value that is in the book. -/
theorem exists_slot (h : r ∈ m.book.contents) :
    ∃ slot, m.pool.slot? (m.pool.place r.handle) = some slot ∧ slot.live = true ∧
      slot.read? = some r.value := by
  have hSeat : (⟨m.pool.place r.handle, .value r.value⟩ : Seat α) ∈ m.seats :=
    List.mem_append_right _ (List.mem_append_left _ (List.mem_map_of_mem h))
  exact (fits.housed.exists_slot hSeat).2

/-- The slot of what a drop has left behind. -/
theorem exists_slot_spent (h : r ∈ m.book.spent) :
    ∃ slot, m.pool.slot? (m.pool.place r.handle) = some slot ∧ slot.live = false ∧
      slot.read? = some r.value := by
  have hSeat : (⟨m.pool.place r.handle, .rest r.value⟩ : Seat α) ∈ m.seats :=
    List.mem_append_right _ (List.mem_append_right _ (List.mem_append_right _
      (List.mem_map_of_mem h)))
  obtain ⟨slot, hSlot, hFlags, hRead⟩ := fits.housed.fits _ hSeat
  exact ⟨slot, hSlot, congrArg Prod.snd hFlags, hRead⟩

theorem value?_eq (h : r ∈ m.book.contents) :
    m.pool.value? (m.pool.place r.handle) = some r.value := by
  obtain ⟨slot, hSlot, hLive, hRead⟩ := fits.exists_slot h
  rw [value?, hSlot, Option.bind_some, if_pos hLive, hRead]

theorem hasSlab_eq (h : r ∈ m.book.contents) : m.pool.hasSlab r.handle = true :=
  decide_eq_true (fits.housed.tidy.within _ (Moment.mem_sites h)).1

/-- Nobody holds a slot that somebody else holds. -/
theorem nodup_held : (m.book.held.map fun r => m.pool.place r.handle).Nodup := by
  have hSites := fits.housed.distinct
  rw [m.sites_eq] at hSites
  exact (List.nodup_append.mp hSites).2.1

/-- Handles of different values in the book name different slots. -/
theorem nodup_places : (m.book.contents.map fun r => m.pool.place r.handle).Nodup := by
  have hHeld := fits.nodup_held
  rw [Book.held, List.append_assoc, List.map_append] at hHeld
  exact (List.nodup_append.mp hHeld).1

/-- A value in the book is the only one with its handle. -/
theorem find?_eq (h : r ∈ m.book.contents) : m.book.find? r.handle = some r := by
  cases hFind : m.book.find? r.handle with
  | none => simpa using List.find?_eq_none.mp hFind r h
  | some found =>
      have hHandle := (Book.contents_perm hFind).1
      have hFound : found ∈ m.book.contents := List.mem_of_find?_eq_some hFind
      rw [List.inj_on_of_nodup_map fits.nodup_places hFound h (by rw [hHandle])]

/-- The slot of a value in the book can be given back. -/
theorem recycle_eq (h : r ∈ m.book.contents) : m.pool.recycle (m.pool.place r.handle) =
    .ok (m.pool.recycled (m.pool.place r.handle)) :=
  (fits.housed.front (Book.seats_perm m.pool.place (fits.find?_eq h))).recycle_eq

end Moment.Fits

section Reading

variable {σ : Type} {b : Book α} {claims : List Place}

/-- A read through a handle of the book shows the value. -/
theorem Moment.Fits.get?_eq {w : Host α σ} (fits : (⟨w.pool, b, claims⟩ : Moment α).Fits)
    (h : r ∈ b.contents) : w.get? r.handle = .ok (some r.value) := by
  have hSlab : w.pool.hasSlab r.handle = true := fits.hasSlab_eq h
  have hValue : w.pool.value? (w.pool.place r.handle) = some r.value := fits.value?_eq h
  rw [Host.get?, if_pos hSlab, hValue]

/-- A value is taken out through its handle, and its slot is free from then on. -/
theorem Moment.Fits.take_eq {w : Host α σ} (fits : (⟨w.pool, b, claims⟩ : Moment α).Fits)
    (h : r ∈ b.contents) : w.take r.handle = (.ok (some r.value), { w with
      pool := (w.pool.recycled (w.pool.place r.handle)).update (w.pool.place r.handle)
        Slot.retire }) := by
  have hRecycle : w.pool.recycle (w.pool.place r.handle) =
      .ok (w.pool.recycled (w.pool.place r.handle)) := fits.recycle_eq h
  simp only [Host.take, fits.get?_eq h, Host.recycle, hRecycle]
  rfl

end Reading


/-- Every step keeps pool and book in agreement. -/
theorem Step.fits (step : Step m es m') (fits : m.Fits) : m'.Fits := by
  cases step with
  | probe => exact fits
  | announce => exact fits
  | reject unwinding v => exact ⟨fits.packs, fits.within, fits.housed, fits.live, fits.inits⟩
  | claim h =>
      refine ⟨fits.packs, ?_, fits.housed.claim (offers_vacancy h), fits.live,
        congrArg (· + 1) fits.inits⟩
      rw [slabCount_mapSlab]
      exact fits.within
  | append hFull hRoom =>
      have hLt := Nat.lt_of_not_le (of_decide_eq_false hRoom)
      obtain ⟨_, _, packs⟩ := fits.packs
      refine ⟨fits.packs, ?_, fits.housed.append (slabCapacity_pos packs) (slabCapacity_lt _),
        fits.live, congrArg (· + 1) fits.inits⟩
      rw [slabCount_append]
      exact hLt
  | reclaim =>
      refine ⟨fits.packs, ?_, ?_, fits.live, congrArg (· - 1) fits.inits⟩
      · rw [slabCount_reclaim]
        exact fits.within
      · exact fits.housed.reclaim (slabCapacity_lt _) fun slot hFits => congrArg Prod.snd hFits
  | @publish p b claims site v =>
      obtain ⟨offsetBits, slabBits, packs⟩ := fits.packs
      have hPlace := fits.housed.place_handle packs fits.within List.mem_cons_self
      have hPerm := (Book.seats_lodge p.place b.leave (p.handle site) v)
      rw [hPlace] at hPerm
      refine ⟨fits.packs, ?_, ?_, ?_, congrArg (· - 1) fits.inits⟩
      · exact (slabCount_update ..).trans_le fits.within
      · exact (fits.housed.publish v).back hPerm
      · calc (p.live + 1).toNat
            = p.live.toNat + 1 := fits.toNat_live_add_one (List.cons_ne_nil _ _)
          _ = (b.leave.seats p.place).length + 1 := congrArg (· + 1) fits.live
          _ = _ := hPerm.length_eq
  | @edit p b claims r h v =>
      have hSeats := b.seats_store p.place r v
      have hFound := Book.seats_perm p.place h
      refine ⟨fits.packs, ?_, ?_, ?_, fits.inits⟩
      · exact (slabCount_update ..).trans_le fits.within
      · exact ((fits.housed.front hFound).write v).back hSeats
      · exact fits.live.trans (hFound.length_eq.trans hSeats.length_eq)
  | @take p b claims r h =>
      have hFound := Book.seats_perm p.place h
      refine ⟨fits.packs, ?_, ?_, ?_, fits.inits⟩
      · exact ((slabCount_update ..).trans (slabCount_reclaim ..)).trans_le fits.within
      · exact (fits.housed.front hFound).take
      · exact fits.toNat_live_sub_one hFound
  | @close p b claims r h =>
      have hFound := Book.seats_perm p.place h
      have hSeats := b.seats_close p.place r
      refine ⟨fits.packs, ?_, ?_, ?_, fits.inits⟩
      · exact (slabCount_update ..).trans_le fits.within
      · exact ((fits.housed.front hFound).retire).back hSeats
      · exact fits.live.trans (hFound.length_eq.trans hSeats.length_eq)
  | @settle p b claims r closing h =>
      have hFound := Book.seats_settle p.place h
      refine ⟨fits.packs, ?_, ?_, ?_, fits.inits⟩
      · exact (slabCount_reclaim ..).trans_le fits.within
      · exact (fits.housed.front hFound).recycled
      · exact fits.toNat_live_sub_one hFound
  | @spoil p b claims r closing h rest =>
      have hFound := Book.seats_settle p.place h
      have hSeats := b.seats_spoil p.place { r with value := rest }
      refine ⟨fits.packs, ?_, ?_, ?_, fits.inits⟩
      · exact (slabCount_update ..).trans_le fits.within
      · exact ((fits.housed.front hFound).spoil rest).back hSeats
      · exact fits.live.trans (hFound.length_eq.trans hSeats.length_eq)

theorem Steps.fits (steps : Steps m es m') (fits : m.Fits) : m'.Fits := by
  induction steps with
  | zero => exact fits
  | succ prior last ih => exact last.fits ih

end TaskMemory.Pool

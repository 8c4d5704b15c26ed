import TaskMemory.Proofs.Pool.History
import TaskMemory.Proofs.Pool.Simulation
import TaskMemory.Proofs.Pool.Teardown

/-!
How a destruction ends. When the drop of the value ends without a fault, the slot goes back to its
place on the free list and the value is not heard of again. When the drop ends in a fault, the slot
is not given back: it stays taken for as long as the pool lives, its value counts as one that is in
the pool, and the end of the pool drops what is left of it once more.
-/
namespace TaskMemory.Pool

variable {α : Type} [Stored α]

/-- A slot is on the free list of its slab, which is in ascending order. -/
def Returned (p : Pool α) (site : Place) : Prop :=
  ∃ slab chain, p.directory.get? site.slab = some slab ∧ slab.Threads slab.head chain none ∧
    chain.Pairwise (· < ·) ∧ site.offset ∈ chain

/-- Neither a construction nor a drop is under way. -/
def Moment.Idle (m : Moment α) : Prop := m.claims = [] ∧ m.book.closing = []

/-- The end of a pool drops these values, in the order of their slots, up to the first fault. -/
structure Moment.Sweeps (m : Moment α) (order : List (Holding α)) : Prop where
  ordered : m.pool.Ordered order
  dispose : ∀ env, m.pool.dispose env =
    match Effect.perform (m.pool.slabsTeardown order) env with
    | (fault, env) => (fault, m.pool.directory.release directoryEntry env)

/-- What a destruction leaves that has given the slot back; the first moment is the end of the
drop. -/
structure Restored (r : Holding α) (m m' : Moment α) : Prop where
  returned : Returned m'.pool (m'.pool.place r.handle)
  counted : m'.pool.live.toNat + 1 = m.pool.live.toNat
  others : ∀ site slot, site ≠ m'.pool.place r.handle → m.pool.slot? site = some slot →
    m'.pool.isFree site = m.pool.isFree site ∧
    (m.pool.isFree site = false → m'.pool.slot? site = some slot)
  /-- Its drop has begun once, and whatever happens it does not begin again. -/
  once : ∀ es later, Steps m' es later → later.book.gone.count r.birth = 1 ∧
    (∀ other ∈ later.book.held, other.birth ≠ r.birth) ∧
    (later.Idle → ∃ order, later.Sweeps order ∧ ∀ other ∈ order, other.birth ≠ r.birth)

/-- What a destruction leaves whose drop has ended in a fault; the first moment is the end of the
drop. -/
structure Abandoned (r : Holding α) (rest : α) (m m' : Moment α) : Prop where
  kept : ¬ Returned m'.pool (m'.pool.place r.handle)
  counted : m'.pool.live = m.pool.live
  unusable : m'.pool.value? (m'.pool.place r.handle) = none
  others : ∀ site slot, site ≠ m'.pool.place r.handle → m.pool.slot? site = some slot →
    m'.pool.isFree site = m.pool.isFree site ∧ m'.pool.slot? site = some slot
  /-- Its drop has begun once. Whatever happens, the slot is not given back, and the end of the pool
  drops what is left in it. -/
  again : ∀ es later, Steps m' es later → later.book.gone.count r.birth = 1 ∧
    ¬ Returned later.pool (later.pool.place r.handle) ∧
    (later.Idle → ∃ order, later.Sweeps order ∧ { r with value := rest } ∈ order)

variable {m : Moment α} {p : Pool α} {b : Book α} {claims : List Place} {r : Holding α}
  {closing : List (Holding α)} {site : Place}

/-- The free lists hold the slots that have no tenants, in ascending order. -/
theorem Moment.Fits.returned_iff (fits : m.Fits) : Returned m.pool site ↔
    site.slab < m.pool.slabCount ∧ site.offset < m.pool.slabCapacity ∧
      site ∉ Seat.sites m.seats := by
  constructor
  · rintro ⟨slab, chain, hGet, threads, _, hMem⟩
    obtain ⟨free, listed⟩ := fits.housed.tidy.listed _ _ hGet
    obtain rfl := threads.unique listed.threads
    obtain ⟨hLt, hFree⟩ := (listed.mem_iff _).mp hMem
    rw [fits.housed.tidy.size _ _ hGet] at hLt
    exact ⟨get?_lt hGet, hLt, hFree⟩
  · rintro ⟨hSlab, hOffset, hFree⟩
    obtain ⟨slab, hGet⟩ := exists_get? hSlab
    obtain ⟨free, listed⟩ := fits.housed.tidy.listed _ _ hGet
    refine ⟨slab, free, hGet, listed.threads, listed.ascending, ?_⟩
    rw [listed.mem_iff, fits.housed.tidy.size _ _ hGet]
    exact ⟨hOffset, hFree⟩

/-- The slot of a value, or of what is left of one, is not free. -/
theorem Moment.Fits.not_returned (fits : m.Fits) (h : r ∈ m.book.held) :
    ¬ Returned m.pool (m.pool.place r.handle) := by
  rw [fits.returned_iff]
  rintro ⟨_, _, hFree⟩
  exact hFree ((m.mem_sites_iff _).mpr (Or.inr ⟨r, h, rfl⟩))

/-- A slot that can be looked at is in one of the slabs. -/
theorem Moment.Fits.within_of_slot? (fits : m.Fits) {slot : Slot α}
    (h : m.pool.slot? site = some slot) :
    site.slab < m.pool.slabCount ∧ site.offset < m.pool.slabCapacity := by
  obtain ⟨slab, hGet, hSlot⟩ := Option.bind_eq_some_iff.mp h
  have hOffset := (Array.getElem?_eq_some_iff.mp hSlot).1
  rw [fits.housed.tidy.size _ _ hGet] at hOffset
  exact ⟨get?_lt hGet, hOffset⟩

/-- Whether a slot is free stays the same if its tenant does. -/
theorem Moment.Fits.isFree_eq {m' : Moment α} (fits : m.Fits) (fits' : m'.Fits)
    (hCount : m'.pool.slabCount = m.pool.slabCount)
    (hCapacity : m'.pool.slabCapacity = m.pool.slabCapacity) {slot : Slot α}
    (h : m.pool.slot? site = some slot)
    (hSites : site ∈ Seat.sites m'.seats ↔ site ∈ Seat.sites m.seats) :
    m'.pool.isFree site = m.pool.isFree site := by
  obtain ⟨hSlab, hOffset⟩ := fits.within_of_slot? h
  rw [Bool.eq_iff_iff, fits.housed.tidy.isFree_iff hSlab hOffset,
    fits'.housed.tidy.isFree_iff (hCount ▸ hSlab) (hCapacity ▸ hOffset), hSites]

/-- The end of a pool drops all that the book tells of. -/
theorem Moment.Fits.sweeps (fits : m.Fits) (idle : m.Idle) :
    ∃ order, m.Sweeps order ∧ order.Perm m.book.held := by
  obtain ⟨order, hPerm, hOrder⟩ := fits.exists_order
  exact ⟨order, ⟨hOrder, fits.dispose_eq idle.1 idle.2 hPerm hOrder⟩, hPerm⟩

omit [Stored α] in
/-- The value of the innermost drop is gone, and no other one has its number. -/
theorem Book.Orderly.innermost (orderly : b.Orderly) (h : b.closing = r :: closing) :
    r.birth ∈ b.gone ∧ r.birth ∉ b.settle.parting := by
  have hParting : b.parting = r.birth :: b.settle.parting := by
    simp [Book.parting, Book.settle, h]
  have hOnce := orderly.once
  rw [hParting] at hOnce
  exact ⟨orderly.gone _ (hParting ▸ List.mem_cons_self), (List.nodup_cons.mp hOnce).1⟩

omit [Stored α] in
/-- The slot of the innermost drop and the slots that stay taken after it. -/
theorem Moment.sites_settle (p : Pool α) (claims : List Place) (h : b.closing = r :: closing) :
    (Seat.sites (⟨p, b, claims⟩ : Moment α).seats).Perm (p.place r.handle ::
      Seat.sites (⟨p.recycled (p.place r.handle), b.settle, claims⟩ : Moment α).seats) := by
  have hSeats := (Book.seats_settle p.place h).append_left (claims.map fun site => ⟨site, .claim⟩)
  exact (hSeats.trans List.perm_middle).map Seat.site

/-- A fault at the end of the innermost drop lets nobody in or out. -/
theorem Moment.sites_spoil (p : Pool α) (claims : List Place) (h : b.closing = r :: closing)
    (rest : α) :
    (Seat.sites (⟨p.update (p.place r.handle) (Slot.write rest),
      b.spoil { r with value := rest }, claims⟩ : Moment α).seats).Perm
      (Seat.sites (⟨p, b, claims⟩ : Moment α).seats) := by
  have hBefore := (Book.seats_settle p.place h).map Seat.site
  have hAfter := (Book.seats_spoil p.place b { r with value := rest }).map Seat.site
  have hBook : ((b.spoil { r with value := rest }).seats p.place |>.map Seat.site).Perm
      ((b.seats p.place).map Seat.site) := hAfter.symm.trans hBefore.symm
  simp only [Seat.sites, Moment.seats, List.map_append]
  exact hBook.append_left _

/-- A drop that ends without a fault gives the slot back. -/
theorem Moment.Fits.restored (fits : (⟨p, b, claims⟩ : Moment α).Fits) (orderly : b.Orderly)
    (h : b.closing = r :: closing) : Restored r ⟨p, b, claims⟩
      ⟨p.recycled (p.place r.handle), b.settle, claims⟩ := by
  have step : Step ⟨p, b, claims⟩ [.endDrop false r.value]
      ⟨p.recycled (p.place r.handle), b.settle, claims⟩ := .settle h
  have fits' := step.fits fits
  have orderly' := step.orderly orderly
  have hSites := Moment.sites_settle p claims h
  have hTaken : p.place r.handle ∈ Seat.sites (⟨p, b, claims⟩ : Moment α).seats :=
    hSites.mem_iff.mpr List.mem_cons_self
  have hDistinct := hSites.nodup_iff.mp fits.housed.distinct
  have hCount : (p.recycled (p.place r.handle)).slabCount = p.slabCount :=
    slabCount_reclaim p (p.place r.handle)
  obtain ⟨hGone, hParting⟩ := orderly.innermost h
  constructor
  · obtain ⟨hSlab, hOffset⟩ := fits.housed.tidy.within _ hTaken
    exact fits'.returned_iff.mpr
      ⟨hSlab.trans_eq hCount.symm, hOffset, (List.nodup_cons.mp hDistinct).1⟩
  · calc (p.recycled (p.place r.handle)).live.toNat + 1
        = (b.settle.seats p.place).length + 1 := congrArg (· + 1) fits'.live
      _ = (b.seats p.place).length := (Book.seats_settle p.place h).length_eq.symm
      _ = p.live.toNat := fits.live.symm
  · intro site slot hNe hSlot
    have hMem : site ∈ Seat.sites (⟨p.recycled (p.place r.handle), b.settle, claims⟩ :
        Moment α).seats ↔ site ∈ Seat.sites (⟨p, b, claims⟩ : Moment α).seats := by
      rw [hSites.mem_iff, List.mem_cons]
      exact (or_iff_right hNe).symm
    refine ⟨fits.isFree_eq fits' hCount rfl hSlot hMem, fun hFree => ?_⟩
    obtain ⟨hSlab, hOffset⟩ := fits.within_of_slot? hSlot
    have hOther : site ∈ Seat.sites (⟨p, b, claims⟩ : Moment α).seats := by
      by_contra hNot
      rw [(fits.housed.tidy.isFree_iff hSlab hOffset).mpr hNot] at hFree
      cases hFree
    exact (fits.housed.tidy.slot?_reclaim hTaken hOther hNe).trans hSlot
  · intro es later steps
    obtain ⟨hCount, hHeld⟩ :=
      steps.stays_gone orderly' (step.gone_subset hGone) hParting
    refine ⟨hCount, hHeld, fun idle => ?_⟩
    obtain ⟨order, sweeps, hPerm⟩ := (steps.fits fits').sweeps idle
    exact ⟨order, sweeps, fun other hOther => hHeld other (hPerm.mem_iff.mp hOther)⟩

/-- A drop that ends in a fault does not. -/
theorem Moment.Fits.abandoned (fits : (⟨p, b, claims⟩ : Moment α).Fits) (orderly : b.Orderly)
    (h : b.closing = r :: closing) (rest : α) :
    Abandoned r rest ⟨p, b, claims⟩ ⟨p.update (p.place r.handle) (Slot.write rest),
      b.spoil { r with value := rest }, claims⟩ := by
  have step : Step ⟨p, b, claims⟩ [.endDrop false r.value]
      ⟨p.update (p.place r.handle) (Slot.write rest), b.spoil { r with value := rest }, claims⟩ :=
    .spoil h rest
  have fits' := step.fits fits
  have orderly' := step.orderly orderly
  have hSpent : { r with value := rest } ∈ (b.spoil { r with value := rest }).spent :=
    List.mem_append_right _ List.mem_cons_self
  have hHeld : ∀ b : Book α, { r with value := rest } ∈ b.spent →
      { r with value := rest } ∈ b.held := fun b hMem => List.mem_append_right _ hMem
  constructor
  · exact fits'.not_returned (r := { r with value := rest }) (hHeld _ hSpent)
  · rfl
  · obtain ⟨slot, hSlot, hLive, _⟩ := fits'.exists_slot_spent hSpent
    have hNone : (if slot.live then slot.read? else none) = none := if_neg (by simp [hLive])
    exact (congrArg (Option.bind · _) hSlot).trans hNone
  · intro site slot hNe hSlot
    have hSites := (Moment.sites_spoil p claims h rest).mem_iff (a := site)
    refine ⟨fits.isFree_eq fits' (slabCount_update ..) rfl hSlot hSites, ?_⟩
    exact (slot?_update p _ site _).trans ((if_neg hNe).trans hSlot)
  · intro es later steps
    have fits'' := steps.fits fits'
    have hLater := hHeld _ (steps.spent_subset hSpent)
    have hStill : r.birth ∈ later.book.gone :=
      steps.gone_subset (step.gone_subset (orderly.innermost h).1)
    refine ⟨(steps.orderly orderly').count_gone hStill, ?_, fun idle => ?_⟩
    · exact fits''.not_returned (r := { r with value := rest }) hLater
    · obtain ⟨order, sweeps, hPerm⟩ := fits''.sweeps idle
      exact ⟨order, sweeps, hPerm.mem_iff.mpr hLater⟩

omit [Stored α] in
theorem Moment.orderly_initial (p : Pool α) : (Moment.initial p).book.Orderly where
  complete := List.Perm.refl []
  once := List.nodup_nil
  gone := by simp [Moment.initial, Book.parting]

/-- Whatever has run, in whatever nesting, and whatever runs inside the drop of a value: a
destruction gives the slot back exactly if the drop ends without a fault. -/
theorem Program.destroy_restores_iff {o : PoolOptions} {p : Pool α} (h : Pool.create o = .ok p)
    (env : Environment) (program : Program α) :
    ∀ view ∈ (program.run (Usage.start p env)).state.views, ∃ claims,
      Reaches (Moment.initial p) env ⟨view.pool, view.state, claims⟩ view.env ∧
      ∀ r ∈ view.state.contents, ∀ (dropping : Program α) (u w : Usage α),
        (Usage.resume view).inside r dropping.run = u →
        (Usage.resume view).destroy r dropping.run = w →
        (Restored r (u.moment claims) (w.moment claims) ↔
          (Stored.endDrop false r.value u.env).1 = none) ∧
        ∀ fault rest after, Stored.endDrop false r.value u.env = (some fault, rest, after) →
          (Host.destroy r.handle (fun w => ((), dropping.run w))
            ((Usage.resume view).close r)).1 = .error fault ∧
          Abandoned r rest (u.moment claims) (w.moment claims) := by
  intro view hView
  have fits₀ := Moment.fits_initial h
  obtain ⟨claims, reached⟩ := (program.follows_initial h env).views view hView
  refine ⟨claims, reached, fun r hMem dropping u w hInside hDestroy => ?_⟩
  have resumed := reached.resumed
  have hFind : (Usage.resume view).state.book.find? r.handle = some r :=
    (resumed.fits fits₀).find?_eq hMem
  have inside : Follows (Moment.initial p) env claims (r :: view.state.closing) u :=
    hInside ▸ resumed.inside hFind fun _ begun => dropping.follows fits₀ begun
  have fits := inside.fits fits₀
  obtain ⟨es, steps, _⟩ := inside.reached
  have orderly : u.state.book.Orderly := steps.orderly (Moment.orderly_initial p)
  have hOutcome := resumed.destroy_eq fits₀ hFind hInside inside
  rw [resumed.usage_destroy_eq fits₀ hFind hInside inside] at hDestroy
  rcases hEnd : Stored.endDrop false r.value u.env with ⟨_ | fault, rest, after⟩
  · rw [hEnd] at hDestroy
    have restored : Restored r (u.moment claims) (w.moment claims) :=
      hDestroy ▸ fits.restored orderly inside.closing
    exact ⟨iff_of_true restored rfl, fun fault rest after hFault => by cases hFault⟩
  · rw [hEnd] at hDestroy hOutcome
    have abandoned : Abandoned r rest (u.moment claims) (w.moment claims) :=
      hDestroy ▸ fits.abandoned orderly inside.closing rest
    refine ⟨iff_of_false (fun restored => abandoned.kept restored.returned) (by simp), ?_⟩
    intro fault' rest' after' hFault
    obtain ⟨rfl, rfl, rfl⟩ : fault = fault' ∧ rest = rest' ∧ after = after' := by
      simpa using hFault
    exact ⟨congrArg Prod.fst hOutcome, abandoned⟩

/-- A value whose drop ends in a fault is destroyed. -/
theorem Program.destroy_restores_iff_armed :
    ∃ view ∈ (armed.run (Usage.start (pair Tracked) untouched)).state.views, ∃ claims,
      ∃ r ∈ view.state.contents, r.value = ⟨7, true⟩ ∧ Abandoned r r.value
        (((Usage.resume view).inside r (Program.run .done)).moment claims)
        (((Usage.resume view).destroy r (Program.run .done)).moment claims) := by
  let w := (Usage.start (pair Tracked) untouched).look.construct ⟨7, true⟩ (Program.run .done)
    (Program.run .done) none
  have hView : (⟨w.pool, w.env, w.state.book⟩ : Host Tracked (Book Tracked)) ∈
      (armed.run (Usage.start (pair Tracked) untouched)).state.views :=
    List.mem_append_right _ List.mem_cons_self
  have hMem : (⟨⟨0⟩, 0, ⟨7, true⟩⟩ : Holding Tracked) ∈ w.state.book.contents := by
    decide +kernel
  obtain ⟨claims, _, comes⟩ := Program.destroy_restores_iff create_pair untouched armed _ hView
  exact ⟨_, hView, claims, _, hMem, rfl, ((comes _ hMem .done _ _ rfl rfl).2 _ _ _ rfl).2⟩

/-- Its slot is neither free nor usable, it counts as a value in the pool, and the end of the pool
drops it a second time. -/
theorem Program.armed_drops_twice : ∃ w : Usage Tracked,
    (Program.construct ⟨7, true⟩ .done .done none (.destroy ⟨0⟩ .done .done)).run
      (Usage.start (pair Tracked) untouched) = w ∧
    w.pool.isFree ⟨0, 0⟩ = false ∧ w.pool.value? ⟨0, 0⟩ = none ∧ w.pool.live = 1 ∧
    w.env.drops = #[7] ∧ (w.pool.dispose w.env).2.drops = #[7, 7] :=
  ⟨_, rfl, by decide +kernel, by decide +kernel, by decide +kernel, by decide +kernel,
    by decide +kernel⟩

end TaskMemory.Pool

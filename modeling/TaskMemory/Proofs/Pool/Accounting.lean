import TaskMemory.Proofs.Pool.Simulation

/-!
The free lists and the counts of a pool, at every point at which user code can look. They are told
in terms of the book: a slot is held by a value that can be used, by one whose drop is running, or
by what a drop that ended in a fault has left; or a construction whose code is running has claimed
it; or it is free.
-/
namespace TaskMemory.Pool

variable {α : Type} [Stored α] {m : Moment α}

/-- The free lists and the counts of a pool are as the book says. -/
structure Accounted (w : Host α (Book α)) : Prop where
  /-- A free list is a chain of ascending offsets that ends, is as long as its count says, and has
  just the slots that nobody holds and no construction has claimed. -/
  chains : ∀ k slab, w.pool.directory.get? k = some slab → ∃ chain,
    slab.Threads slab.head chain none ∧ chain.Pairwise (· < ·) ∧ chain.length = slab.freeCount ∧
    ∀ i, i ∈ chain ↔ i < w.pool.slabCapacity ∧
      (∀ r ∈ w.state.held, w.pool.place r.handle ≠ ⟨k, i⟩) ∧
      ∀ slot, w.pool.slot? ⟨k, i⟩ = some slot → slot.claimed = false
  /-- The claimed slots are those of the constructions whose code is running. -/
  claims : ∃ claims : List Place, claims.Nodup ∧ claims.length = w.state.inits ∧
    ∀ site, site ∈ claims ↔ ∃ slot, w.pool.slot? site = some slot ∧ slot.claimed = true
  live : w.pool.live.toNat = w.state.held.length
  total : w.pool.live.toNat + w.pool.freeSlots + w.state.inits =
    w.pool.slabCount * w.pool.slabCapacity
  bound : w.pool.slabCount ≤ w.pool.codec.maxSlabs.toNat

/-- The slots of the constructions under way are marked, and no others. -/
theorem Moment.Fits.mem_claims (fits : m.Fits) (site : Place) : site ∈ m.claims ↔
    ∃ slot, m.pool.slot? site = some slot ∧ slot.claimed = true := by
  constructor
  · intro h
    have hSeat : (⟨site, .claim⟩ : Seat α) ∈ m.seats :=
      List.mem_append_left _ (List.mem_map_of_mem h)
    obtain ⟨slot, hSlot, hFlags⟩ := fits.housed.fits _ hSeat
    exact ⟨slot, hSlot, congrArg Prod.fst hFlags⟩
  · rintro ⟨slot, hSlot, hClaimed⟩
    by_cases hSite : site ∈ Seat.sites m.seats
    · obtain ⟨seat, hSeat, rfl⟩ := List.mem_map.mp hSite
      obtain ⟨found, hFound, hFits⟩ := fits.housed.fits seat hSeat
      obtain rfl : found = slot := Option.some.inj (hFound.symm.trans hSlot)
      have hNot : found.flags.1 ≠ false := by
        change found.claimed ≠ false
        simp [hClaimed]
      simp only [Moment.seats, Book.seats, List.mem_append, List.mem_map] at hSeat
      rcases hSeat with ⟨claim, hClaim, rfl⟩ | ⟨r, _, rfl⟩ | ⟨r, _, rfl⟩ | ⟨r, _, rfl⟩
      · exact hClaim
      · exact absurd (congrArg Prod.fst hFits.1) hNot
      · exact absurd (congrArg Prod.fst hFits) hNot
      · exact absurd (congrArg Prod.fst hFits.1) hNot
    · have hFlags := congrArg Prod.fst (fits.housed.idle site slot hSlot hSite)
      change slot.claimed = false at hFlags
      rw [hFlags] at hClaimed
      cases hClaimed

/-- Where the pool fits its book the account is right. -/
theorem Moment.Fits.accounted {w : Host α (Book α)} {claims : List Place}
    (fits : (⟨w.pool, w.state, claims⟩ : Moment α).Fits) : Accounted w where
  chains k slab hGet := by
    obtain ⟨chain, listed⟩ := fits.housed.tidy.listed k slab hGet
    refine ⟨chain, listed.threads, listed.ascending, listed.count.symm, fun i => ?_⟩
    rw [listed.mem_iff, fits.housed.tidy.size k slab hGet, Moment.mem_sites_iff, not_or,
      fits.mem_claims]
    simp only [not_exists, not_and, Bool.not_eq_true]
    exact and_congr_right fun _ => and_comm
  claims := by
    have hSites := fits.housed.distinct
    rw [Moment.sites_eq] at hSites
    exact ⟨claims, (List.nodup_append.mp hSites).1, fits.inits, fits.mem_claims⟩
  live := by
    rw [fits.live]
    simp [Book.seats, Book.held]
  total := fits.live_add_freeSlots_add_inits
  bound := fits.within

/-- Whatever runs, in whatever nesting: at every point at which user code can look, the free lists
and the counts of the pool are as the book says. -/
theorem Program.keeps_account {o : PoolOptions} {p : Pool α} (h : Pool.create o = .ok p)
    (env : Environment) (program : Program α) :
    ∀ view ∈ (program.run (Usage.start p env)).state.views, Accounted view := by
  intro view hView
  obtain ⟨claims, es, steps, _⟩ := (program.follows_initial h env).views view hView
  exact (steps.fits (Moment.fits_initial h)).accounted

/-- Inside the construction of the first value, and inside the drop of it. -/
theorem Program.keeps_account_nested :
    ((nested.run (Usage.start (pair Tracked) untouched)).state.views.map fun view =>
      (view.pool.live.toNat, view.pool.freeSlots, view.state.inits, view.pool.slabCount)) =
      [(0, 0, 0, 0), (0, 0, 0, 0), (0, 1, 1, 1), (0, 0, 2, 1), (1, 0, 1, 1), (2, 0, 0, 1),
        (2, 0, 0, 1), (2, 0, 0, 1), (2, 1, 1, 2), (3, 1, 0, 2), (3, 0, 1, 2), (3, 1, 0, 2),
        (3, 1, 0, 2), (3, 1, 0, 2), (2, 2, 0, 2), (1, 3, 0, 2)] ∧
    ∀ view ∈ (nested.run (Usage.start (pair Tracked) untouched)).state.views, Accounted view :=
  ⟨by decide +kernel, Program.keeps_account create_pair untouched nested⟩

end TaskMemory.Pool

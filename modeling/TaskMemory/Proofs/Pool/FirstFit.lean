import TaskMemory.Proofs.Pool.Addressing
import TaskMemory.Proofs.Pool.Vacancy

/-!
Which slot a construction gets. It depends only on the number of slabs and on which slots are
occupied: the vacant slot with the smallest handle, or else the first slot of a new slab. A
construction that gets none leaves the pool as it is. Code that runs while the block of a new slab
is obtained can come first; what is said here of a new slab holds if it leaves the room of the pool
as it has found it.
-/
namespace TaskMemory.Pool

section Order

variable {α : Type} {p : Pool α} {site other : Place} {offsetBits slabBits : Nat}

/-- Handles count the slots through, slab by slab. -/
theorem toNat_handle (packs : p.codec.Packs offsetBits slabBits)
    (hSlab : site.slab < p.codec.maxSlabs.toNat) (hOffset : site.offset < p.slabCapacity) :
    (p.handle site).raw.toNat = site.slab * p.slabCapacity + site.offset := by
  have hWidth := packs.width
  have hLt : site.slab < 2 ^ slabBits := hSlab.trans_le packs.maxSlabs
  have hCapacity : p.slabCapacity = 2 ^ offsetBits := packs.toNat_slabCapacity
  have hSlabs : 2 ^ slabBits ≤ 2 ^ 32 := Nat.pow_le_pow_right (by decide) (by omega)
  have hSlabNat : site.slab.toUInt32.toNat = site.slab := by
    rw [Nat.toUInt32_eq, UInt32.toNat_ofNat', Nat.mod_eq_of_lt (by omega)]
  have hOffsetNat : site.offset.toUInt32.toNat = site.offset := by
    have := p.slabCapacity_lt
    rw [Nat.toUInt32_eq, UInt32.toNat_ofNat', Nat.mod_eq_of_lt (by omega)]
  rw [handle, packs.toNat_encode (by rwa [hSlabNat]) (by rwa [hOffsetNat, ← hCapacity]), hSlabNat,
    hOffsetNat, hCapacity]

/-- The first slot has the smallest handle. -/
theorem handle_lt_handle (packs : p.codec.Packs offsetBits slabBits)
    (hWithin : p.slabCount ≤ p.codec.maxSlabs.toNat) (hSite : site ∈ p.places)
    (hOther : other ∈ p.places)
    (hFirst : site.slab < other.slab ∨ site.slab = other.slab ∧ site.offset < other.offset) :
    (p.handle site).raw < (p.handle other).raw := by
  obtain ⟨hSlab, hOffset⟩ := mem_places.mp hSite
  obtain ⟨hSlab', hOffset'⟩ := mem_places.mp hOther
  rw [UInt32.lt_iff_toNat_lt, toNat_handle packs (hSlab.trans_le hWithin) hOffset,
    toNat_handle packs (hSlab'.trans_le hWithin) hOffset']
  rcases hFirst with hLt | ⟨hEq, hLt⟩
  · calc site.slab * p.slabCapacity + site.offset
        < (site.slab + 1) * p.slabCapacity := by rw [Nat.add_one_mul]; omega
      _ ≤ other.slab * p.slabCapacity := Nat.mul_le_mul_right _ hLt
      _ ≤ _ := Nat.le_add_right _ _
  · rw [hEq]
    exact Nat.add_lt_add_left hLt _

end Order

variable {α : Type} [Stored α]

/-- The construction of a value gets this slot, whatever code builds the value, and then there are
so many slabs. -/
structure Gets (w : Usage α) (v : α) (growing : Program α) (site : Place) (slabs : Nat) : Prop where
  made : ∀ building : Program α, (w.make v growing.run building.run none).1.made =
    .ok (w.pool.handle site)
  /-- The code that builds the value finds that slot occupied in addition, and no other one. -/
  begins : ∃ seen u, Host.acquire (fun w => ((), growing.run w)) w = (.ok site, seen, u) ∧
    u.pool.slabCount = slabs ∧
    ∀ other, other ∈ u.pool.occupied ↔ other = site ∨ other ∈ w.pool.occupied
  /-- If that code leaves the pool alone, this is so afterwards as well. -/
  slabs : (w.construct v growing.run Program.done.run none).pool.slabCount = slabs
  occupied : ∀ other, other ∈ (w.construct v growing.run Program.done.run none).pool.occupied ↔
    other = site ∨ other ∈ w.pool.occupied
  value : (w.construct v growing.run Program.done.run none).get? (w.pool.handle site) =
    .ok (some v)

/-- How the drop ends of a value for which there is no slot. -/
def Usage.turnedAway (v : α) (w : Usage α) : Option Fault × α × Environment :=
  Stored.drop false v (w.env.raise (.poolExhausted w.pool.codec.maxSlabs))

/-- The construction of a value gets no slot: no code is run, nothing changes, and the value is
dropped. -/
structure Refuses (w : Usage α) (v : α) (growing building : Program α) (failure : Option Fault) :
    Prop where
  made : (w.make v growing.run building.run failure).1 = ⟨.error (match (w.turnedAway v).1 with
    | none => .noSlot (.exhausted w.pool.codec.maxSlabs)
    | some fault => .fault fault), none, none⟩
  after : w.construct v growing.run building.run failure =
    Usage.record (·.refuse v) { w with env := (w.turnedAway v).2.2 }
  memory : Effect.KeepsMemory α →
    (w.construct v growing.run building.run failure).env.resource = w.env.resource

/-- What the construction of a value that is ready comes to. -/
structure FirstFit (w : Usage α) (v : α) (growing : Program α) : Prop where
  vacant : w.pool.vacant ≠ [] → ∃ site ∈ w.pool.vacant,
    (∀ other ∈ w.pool.vacant, other ≠ site → (w.pool.handle site).raw < (w.pool.handle other).raw) ∧
    Gets w v growing site w.pool.slabCount
  grows : w.pool.vacant = [] → w.pool.slabCount < w.pool.codec.maxSlabs.toNat →
    SameRoom w.pool (growing.run w).pool →
    Gets w v growing ⟨w.pool.slabCount, 0⟩ (w.pool.slabCount + 1)
  refuses : w.pool.vacant = [] → w.pool.codec.maxSlabs.toNat ≤ w.pool.slabCount →
    ∀ building failure, Refuses w v growing building failure

variable {m₀ : Moment α} {env₀ : Environment} {claims : List Place} {closing : List (Holding α)}
  {w u : Usage α} {v : α} {growing : Program α} {site : Place} {seen : Option Unit} {slabs : Nat}

/-- A construction that acquires a slot gets the handle of that slot. -/
theorem Follows.gets (follows : Follows m₀ env₀ claims closing w) (fits₀ : m₀.Fits)
    (hAcquire : Host.acquire (fun w => ((), growing.run w)) w = (.ok site, seen, u))
    (hSlabs : u.pool.slabCount = slabs)
    (hOccupied : ∀ other, other ∈ u.pool.occupied ↔ other = site ∨ other ∈ w.pool.occupied) :
    Gets w v growing site slabs := by
  have claimed := follows.acquire fits₀ fun _ => growing.follows fits₀
  rw [hAcquire] at claimed
  have hHandle : ∀ building : Program α,
      (building.run (Usage.record Book.enter u)).pool.handle site = w.pool.handle site := by
    intro building
    rw [handle, (building.follows fits₀ claimed).codec_eq, ← follows.codec_eq, handle]
  have hPool : (w.construct v growing.run Program.done.run none).pool = u.pool.publish site v := by
    rw [← Usage.snd_make, Usage.make_of_slot hAcquire]
    rfl
  have made : ∀ building : Program α, (w.make v growing.run building.run none).1.made =
      .ok (w.pool.handle site) := by
    intro building
    rw [Usage.make_of_slot hAcquire, hHandle]
  have tidy := claimed.tidy fits₀
  constructor
  · exact made
  · exact ⟨seen, u, hAcquire, hSlabs, hOccupied⟩
  · rw [hPool]
    exact (slabCount_update ..).trans hSlabs
  · intro other
    rw [hPool]
    exact (tidy.mem_occupied_update (Or.inl List.mem_cons_self) _).trans (hOccupied other)
  · have constructed := follows.construct fits₀ v none (fun _ => growing.follows fits₀)
      fun _ _ => Program.done.follows fits₀
    have hMade := made Program.done
    rw [← Usage.snd_make] at constructed ⊢
    rcases hMake : w.make v growing.run Program.done.run none with ⟨done, w'⟩
    rw [hMake] at constructed hMade
    obtain ⟨r, hMem, hReturned, rfl⟩ := Usage.exists_of_make hMake hMade
    rw [← hReturned]
    exact (constructed.fits fits₀).get?_eq hMem

/-- A full pool at its limit refuses, and keeps all that it has. -/
theorem Usage.refuses (growing building : Program α) (failure : Option Fault)
    (hVacancy : w.pool.vacancy? = none) (hLimit : w.pool.atLimit = true) :
    Refuses w v growing building failure := by
  have hAcquire := Host.acquire_of_atLimit (fun w => ((), growing.run w)) hVacancy hLimit
  have hMake : w.make v growing.run building.run failure =
      (⟨.error (match (w.turnedAway v).1 with
        | none => .noSlot (.exhausted w.pool.codec.maxSlabs)
        | some fault => .fault fault), none, none⟩,
        Usage.record (·.refuse v) { w with env := (w.turnedAway v).2.2 }) := by
    simp only [make, Host.construct, hAcquire, Refusal.isFault, turnedAway]
    rcases Stored.drop false v (w.env.raise (.poolExhausted w.pool.codec.maxSlabs)) with
      ⟨_ | fault, rest, env⟩
    · rfl
    · rfl
  have hAfter : w.construct v growing.run building.run failure = _ :=
    Usage.snd_make.symm.trans (congrArg Prod.snd hMake)
  refine ⟨congrArg Prod.fst hMake, hAfter, fun keeps => ?_⟩
  rw [hAfter]
  exact (keeps.endDrop ..).trans (keeps.beginDrop ..)

/-- A construction gets the first vacancy, or the first slot of a new slab, or it is refused. -/
theorem Follows.firstFit (follows : Follows m₀ env₀ claims closing w) (fits₀ : m₀.Fits) (v : α)
    (growing : Program α) : FirstFit w v growing := by
  have fits := follows.fits fits₀
  have tidy := follows.tidy fits₀
  have housed : w.pool.Housed (w.moment claims).seats := fits.housed
  obtain ⟨_, _, packs⟩ := fits.packs
  constructor
  case vacant =>
    intro hVacant
    obtain ⟨site, hVacancy⟩ := Option.ne_none_iff_exists'.mp
      fun hNone => hVacant (tidy.vacancy?_eq_none_iff.mp hNone)
    have hSite := tidy.vacancy_mem hVacancy
    refine ⟨site, hSite, fun other hOther hNe => ?_, ?_⟩
    · exact handle_lt_handle packs fits.within (mem_vacant.mp hSite).1 (mem_vacant.mp hOther).1
        (tidy.first_of_vacancy hVacancy hOther hNe)
    · exact follows.gets fits₀ (Host.acquire_of_vacancy _ housed hVacancy) (slabCount_mapSlab ..)
        fun other => tidy.mem_occupied_unlink (offers_vacancy hVacancy)
  case grows =>
    intro hFull hRoom same
    have hVacancy := tidy.vacancy?_eq_none_iff.mpr hFull
    have hLimit : w.pool.atLimit = false := decide_eq_false (Nat.not_le.mpr hRoom)
    have grown := growing.follows fits₀ follows
    have tidy' := grown.tidy fits₀
    obtain ⟨_, _, packs'⟩ := (grown.fits fits₀).packs
    have hAcquire := Host.acquire_of_room (fun w => ((), growing.run w)) hVacancy hLimit rfl
    rw [extend_of_room ((same.vacancy?_eq tidy tidy').trans hVacancy)
      (same.atLimit_eq.trans hLimit)] at hAcquire
    rw [← same.slabs]
    apply follows.gets fits₀ hAcquire (slabCount_append _)
    intro other
    rw [tidy'.mem_occupied_append (slabCapacity_pos packs'), same.occupied]
  case refuses =>
    intro hFull hLimit building failure
    exact Usage.refuses growing building failure (tidy.vacancy?_eq_none_iff.mpr hFull)
      (decide_eq_true hLimit)

/-- Constructions are refused exactly when the values and the constructions under way have all slots
that the pool may ever have. -/
theorem Moment.Fits.full_iff {m : Moment α} (fits : m.Fits) :
    m.pool.vacant = [] ∧ m.pool.codec.maxSlabs.toNat ≤ m.pool.slabCount ↔
      m.pool.live.toNat + m.book.inits = m.pool.codec.maxSlabs.toNat * m.pool.slabCapacity := by
  have hCount := length_vacant_add_occupied (p := m.pool)
  have hOccupied := fits.length_occupied
  have hWithin := fits.within
  obtain ⟨_, _, packs⟩ := fits.packs
  have hPos : 0 < m.pool.slabCapacity := slabCapacity_pos packs
  rw [capacity] at hCount
  constructor
  · rintro ⟨hFull, hLimit⟩
    rw [hFull, List.length_nil, Nat.zero_add, hOccupied] at hCount
    rw [hCount, Nat.le_antisymm hWithin hLimit]
  · intro hAll
    have hLe := Nat.mul_le_mul_right m.pool.slabCapacity hWithin
    refine ⟨List.eq_nil_of_length_eq_zero (by omega), ?_⟩
    exact Nat.le_of_mul_le_mul_right (by omega) hPos

end TaskMemory.Pool

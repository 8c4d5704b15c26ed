import TaskMemory.Proofs.Pool.Shift

/-!
What the acts of the calls so far say about the pool. A slot that has been handed out and not been
put back is one that somebody has (`Tracks.slots`); a block that has been obtained is a slab, has
been given back or is in the hands of a call (`Tracks.blocks`); and the counter is as many
constructions as have ended, less the values that have gone (`Tracks.live`).
-/
namespace TaskMemory.Pool

variable {α : Type}

/-- A slot is handed out after it has been put back as often as it was handed out before, and the
blocks become slabs in the order of the slabs. -/
def Act.InOrder (before : List (Act α)) (act : Act α) : Prop :=
  (∀ site ∈ act.grants,
    (before.flatMap Act.grants).count site = (before.flatMap Act.releases).count site) ∧
  ∀ block site, act = .appended block site → site = ⟨(before.flatMap Act.appends).length, 0⟩

namespace Stage

/-- The block that a call has in its hands. -/
def blocks : Stage α → List Nat
  | .grown _ block | .surplus _ block _ => [block]
  | _ => []

/-- Whether a call ends the life of a value that is still counted. -/
def ends : Stage α → Bool
  | .closing .. | .dropping .. | .moving .. | .emptied .. | .released _ => true
  | _ => false

end Stage

namespace Traffic

/-- The slots of some calls, and those of the others. -/
theorem sites_split (s : Traffic α) (before rest after : List (Call α)) :
    (Seat.sites (s.allSeats (before ++ rest ++ after))).Perm
      (Seat.sites (rest.flatMap (·.stage.seats s.pool.place) ++ s.seats) ++
        Seat.sites ((before ++ after).flatMap (·.stage.seats s.pool.place))) := by
  have hSplit := (s.allSeats_split before rest after).map Seat.site
  rwa [← List.append_assoc, List.map_append] at hSplit

/-- The start of a call does nothing to the pool. The value whose life it is to end is counted with
the call from then on. -/
theorem start_keeps {s s' : Traffic α} {request : Request α} {stage : Stage α}
    (hStart : s.start request = some (stage, s')) :
    s'.pool = s.pool ∧ s'.blocks = s.blocks ∧ s'.spent = s.spent ∧ stage.blocks = [] ∧
      s.held.length = s'.held.length + if stage.ends then 1 else 0 := by
  obtain ⟨v, rfl, rfl⟩ | ⟨h, r, hFind, hStage, rfl⟩ := start_cases hStart
  · exact ⟨rfl, rfl, rfl, rfl, rfl⟩
  · have hLength := (perm_of_find? hFind).2.length_eq
    obtain rfl | rfl := hStage
    · exact ⟨rfl, rfl, rfl, rfl, hLength⟩
    · exact ⟨rfl, rfl, rfl, rfl, hLength⟩

variable [Stored α] {log : List (Act α)} {s : Traffic α} {calls before after : List (Call α)}
  {t : Call α} {outcome : Outcome α}

/-- The acts since a new pool account for the pool, the calls under way and the values that are
there. -/
structure Tracks (p : Pool α) (log : List (Act α)) (s : Traffic α) (calls : List (Call α)) :
    Prop where
  codec : s.pool.codec = p.codec
  fits : s.Fits calls
  slots : ∀ site, (log.flatMap Act.grants).count site =
    (log.flatMap Act.releases).count site + (Seat.sites (s.allSeats calls)).count site
  inside : ∀ site ∈ log.flatMap Act.grants, site.slab < s.pool.slabCount
  obtained : log.flatMap Act.obtains = List.range s.blocks
  blocks : (List.range s.blocks).Perm (log.flatMap Act.appends ++ log.flatMap Act.discards ++
    calls.flatMap (·.stage.blocks))
  slabs : (log.flatMap Act.appends).length = s.pool.slabCount
  spent : s.spent.length = log.countP Act.breaks
  count : log.countP Act.raises = log.countP Act.lowers + log.countP Act.breaks +
    s.held.length + calls.countP (·.stage.ends)
  live : s.pool.live = UInt64.ofNat (log.countP Act.raises - log.countP Act.lowers)
  inOrder : ∀ before act after, log = before ++ act :: after → act.InOrder before

end Traffic

namespace Shift

variable [Stored α] {s : Traffic α} {t : Stage α} {outcome : Traffic.Outcome α}

/-- A slot that is handed out is had by nobody before. -/
theorem not_mem_of_granted {seats : List (Seat α)} (shift : Shift s t outcome)
    (housed : s.pool.Housed seats) : ∀ site ∈ outcome.1.grants, site ∉ Seat.sites seats := by
  cases shift with
  | grant hOffers | overtake _ hOffers =>
      intro site hMem
      obtain rfl := List.mem_singleton.mp hMem
      exact (housed.tidy.not_taken hOffers).1
  | append =>
      intro site hMem hTaken
      obtain rfl := List.mem_singleton.mp hMem
      exact Nat.lt_irrefl _ (housed.tidy.within _ hTaken).1
  | _ => nofun

/-- A slot that is handed out is in a slab that there is. -/
theorem slab_lt_of_granted {seats : List (Seat α)} (shift : Shift s t outcome)
    (housed : s.pool.Housed seats) : ∀ site ∈ outcome.1.grants,
      site.slab < outcome.2.2.pool.slabCount := by
  cases shift with
  | grant hOffers | overtake _ hOffers =>
      intro site hMem
      obtain rfl := List.mem_singleton.mp hMem
      exact (housed.tidy.not_taken hOffers).2.1.trans_eq (slabCount_mapSlab ..).symm
  | append =>
      intro site hMem
      obtain rfl := List.mem_singleton.mp hMem
      exact (Nat.lt_succ_self _).trans_eq (slabCount_append _).symm
  | _ => nofun

/-- A slot that is handed out has somebody then, and one that is put back had somebody. -/
theorem sites_perm {seats : List (Seat α)} (shift : Shift s t outcome) {offsetBits slabBits : Nat}
    (packs : s.pool.codec.Packs offsetBits slabBits)
    (hWithin : s.pool.slabCount ≤ s.pool.codec.maxSlabs.toNat)
    (housed : s.pool.Housed (t.seats s.pool.place ++ seats)) :
    (outcome.1.releases ++ Seat.sites (outcome.2.1.elim [] (Stage.seats outcome.2.2.pool.place) ++
      outcome.2.2.seats)).Perm
      (outcome.1.grants ++ Seat.sites (t.seats s.pool.place ++ s.seats)) := by
  cases shift with
  | @count v site =>
      have hPlace := housed.place_handle packs hWithin List.mem_cons_self
      have hSeats := (Traffic.seats_count s (s.pool.handle site) v).symm.map Seat.site
      rw [List.map_cons, hPlace] at hSeats
      exact hSeats
  | _ => exact List.Perm.refl _

/-- A block that is obtained is in the hands of the call until it is a slab or is given back. -/
theorem blocks_eq (shift : Shift s t outcome) :
    outcome.1.obtains ++ t.blocks =
      outcome.1.appends ++ outcome.1.discards ++ outcome.2.1.elim [] Stage.blocks ∧
    List.range outcome.2.2.blocks = List.range s.blocks ++ outcome.1.obtains := by
  cases shift with
  | obtain => exact ⟨rfl, List.range_succ⟩
  | _ => exact ⟨rfl, (List.append_nil _).symm⟩

/-- A value that is counted is there, or a call ends its life, or a drop has broken off. -/
theorem count_eq (shift : Shift s t outcome) :
    (if outcome.1.raises then 1 else 0) + s.held.length + (if t.ends then 1 else 0) =
      (if outcome.1.lowers then 1 else 0) + (if outcome.1.breaks then 1 else 0) +
        outcome.2.2.held.length + if outcome.2.1.any Stage.ends then 1 else 0 := by
  cases shift <;> simp [Act.raises, Act.lowers, Act.breaks, Stage.ends, Nat.add_comm]

theorem spent_eq (shift : Shift s t outcome) :
    outcome.2.2.spent.length = s.spent.length + if outcome.1.breaks then 1 else 0 := by
  cases shift <;> rfl

/-- The counter changes as the act says, up to a multiple of `2 ^ 64`. -/
theorem live_eq (shift : Shift s t outcome) : outcome.2.2.pool.live =
    s.pool.live + UInt64.ofNat (if outcome.1.raises then 1 else 0) -
      UInt64.ofNat (if outcome.1.lowers then 1 else 0) := by
  cases shift <;> simp [Act.raises, Act.lowers]

end Shift

namespace Traffic

variable [Stored α] {p : Pool α} {log : List (Act α)} {s : Traffic α}
  {calls before after : List (Call α)} {t : Call α} {outcome : Outcome α}

/-- Nothing has been done at a new pool. -/
theorem tracks_opening {o : PoolOptions} (hCreate : Pool.create o = .ok p)
    (env : Environment) : Tracks p [] ({ pool := p, env } : Traffic α) [] := by
  obtain ⟨codec, hMake, rfl⟩ := create_eq hCreate
  exact {
    codec := rfl
    fits := ⟨Codec.make_packs hMake, Nat.zero_le _, housed_empty rfl, rfl,
      List.pairwise_singleton ..⟩
    slots := fun _ => rfl
    inside := nofun
    obtained := rfl
    blocks := .refl _
    slabs := rfl
    spent := rfl
    count := rfl
    live := rfl
    inOrder := fun before act after hEq => by cases before <;> cases hEq }

/-- A call that starts has done nothing yet. -/
theorem Tracks.start {request : Request α} {stage : Stage α} {s' : Traffic α}
    (tracks : Tracks p log s calls) (hStart : s.start request = some (stage, s')) :
    Tracks p log { s' with calls := s'.calls + 1 } (calls ++ [⟨s'.calls, stage⟩]) := by
  obtain ⟨hPool, hBlocks, hSpent, hNone, hHeld⟩ := start_keeps hStart
  constructor
  case codec => exact hPool ▸ tracks.codec
  case fits => exact tracks.fits.start hStart
  case slots =>
    intro site
    rw [((allSeats_start hStart calls).map Seat.site).count_eq site]
    exact tracks.slots site
  case inside => exact hPool ▸ tracks.inside
  case obtained => exact hBlocks ▸ tracks.obtained
  case blocks => simpa [hBlocks, hNone] using tracks.blocks
  case slabs => exact hPool ▸ tracks.slabs
  case spent => exact hSpent ▸ tracks.spent
  case count =>
    have hCount := tracks.count
    rw [List.countP_append, List.countP_singleton]
    simp only
    omega
  case live => exact hPool ▸ tracks.live
  case inOrder => exact tracks.inOrder

/-- Every step adds its act to the account. -/
theorem Tracks.advance (tracks : Tracks p log s (before ++ t :: after))
    (shift : Shift s t.stage outcome) : Tracks p (log ++ [outcome.1]) outcome.2.2
      (before ++ t.left outcome.2.1 ++ after) := by
  obtain ⟨offsetBits, slabBits, packs⟩ := tracks.fits.packs
  have hFront := tracks.fits.front
  have hMore : s.pool.slabCount ≤ outcome.2.2.pool.slabCount := by
    obtain ⟨hSame, -⟩ | ⟨_, -, hMore, -, -⟩ := shift.slabCount_eq <;> omega
  have hCount : (log ++ [outcome.1]).countP Act.raises =
      (log ++ [outcome.1]).countP Act.lowers + (log ++ [outcome.1]).countP Act.breaks +
        outcome.2.2.held.length +
          (before ++ t.left outcome.2.1 ++ after).countP (·.stage.ends) := by
    have hOld := tracks.count
    have hStep := shift.count_eq
    simp only [List.countP_append, List.countP_cons, List.countP_nil, Call.countP_left] at hOld ⊢
    omega
  constructor
  case codec => exact shift.codec_eq.trans tracks.codec
  case fits => exact tracks.fits.advance shift
  case count => exact hCount
  case inOrder =>
    refine forall_split_concat tracks.inOrder ⟨?_, ?_⟩
    · intro site hMem
      have hFree := shift.not_mem_of_granted tracks.fits.housed site hMem
      rw [tracks.slots, List.count_eq_zero_of_not_mem hFree, Nat.add_zero]
    · intro block site hAct
      obtain ⟨-, hNone⟩ | ⟨_, hAct', -⟩ := shift.slabCount_eq
      · rw [hAct] at hNone
        cases hNone
      · rw [hAct'] at hAct
        cases hAct
        rw [tracks.slabs]
  case slots =>
    intro site
    have hOld := tracks.slots site
    have hStep := (shift.sites_perm packs tracks.fits.within hFront).count_eq site
    have hCalls := (s.sites_split before [t] after).count_eq site
    have hLeft := (outcome.2.2.sites_split before (t.left outcome.2.1) after).count_eq site
    rw [List.append_assoc, List.singleton_append, List.flatMap_singleton] at hCalls
    rw [Call.flatMap_left, shift.place_eq] at hLeft
    rw [shift.place_eq] at hStep
    rw [hLeft, List.flatMap_append, List.flatMap_append, List.flatMap_singleton,
      List.flatMap_singleton]
    simp only [List.count_append] at hCalls hStep ⊢
    omega
  case inside =>
    intro site hMem
    rw [List.flatMap_append, List.flatMap_singleton, List.mem_append] at hMem
    exact hMem.elim (fun hOld => (tracks.inside site hOld).trans_le hMore)
      (shift.slab_lt_of_granted hFront site)
  case obtained =>
    rw [List.flatMap_append, List.flatMap_singleton, tracks.obtained, shift.blocks_eq.2]
  case blocks =>
    rw [shift.blocks_eq.2, List.perm_iff_count]
    intro block
    have hOld := tracks.blocks.count_eq block
    have hStep := congrArg (List.count block) shift.blocks_eq.1
    simp only [List.flatMap_append, List.flatMap_cons, List.flatMap_nil, List.append_nil,
      Call.flatMap_left, List.count_append] at hOld hStep ⊢
    omega
  case slabs =>
    rw [List.flatMap_append, List.flatMap_singleton, List.length_append, tracks.slabs]
    obtain ⟨hSame, hNone⟩ | ⟨_, hAct, hMore, -, -⟩ := shift.slabCount_eq
    · rw [hSame, hNone]
      rfl
    · rw [hMore, hAct]
      rfl
  case spent =>
    rw [shift.spent_eq, tracks.spent, List.countP_append, List.countP_singleton]
  case live =>
    have hOld := tracks.count
    rw [shift.live_eq, tracks.live, UInt64.ofNat_sub (by omega), UInt64.ofNat_sub (by omega)]
    simp only [List.countP_append, List.countP_singleton, UInt64.ofNat_add]
    grind

end Traffic
end TaskMemory.Pool

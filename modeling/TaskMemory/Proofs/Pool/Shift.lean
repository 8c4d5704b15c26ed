import TaskMemory.Proofs.Pool.Tenancy
import TaskMemory.Proofs.Pool.Traffic

/-!
What a step of a call does at a pool whose slots belong to those who are said to have them. `Shift`
lists all that can happen; from it follows that a step leaves the slots with those who are said to
have them then.
-/
namespace TaskMemory.Pool

variable {α : Type}

/-- The slot that a call has, and as whose. -/
def Stage.seats (place : Handle → Place) : Stage α → List (Seat α)
  | .scanning .. | .growing _ | .grown .. | .surplus _ _ none | .refused .. | .released _ => []
  | .surplus _ _ (some site) | .claimed _ site => [⟨site, .claim⟩]
  | .stored v site => [⟨site, .value v⟩]
  | .closing h v | .moving h v => [⟨place h, .value v⟩]
  | .dropping h _ => [⟨place h, .leaving⟩]
  | .emptied site _ => [⟨site, .leaving⟩]

/-- Whether a call holds the directory. -/
def Stage.scans : Stage α → Bool
  | .scanning .. => true
  | _ => false

/-- The slots of values that no call works on. -/
def Traffic.seats (s : Traffic α) : List (Seat α) :=
  s.spent.map (fun r => ⟨r.1, .rest r.2⟩) ++
    s.held.map fun r => ⟨s.pool.place r.1, .value r.2⟩

namespace Traffic

/-- The seats of the calls, and of the values that no call works on. -/
def allSeats (s : Traffic α) (calls : List (Call α)) : List (Seat α) :=
  calls.flatMap (·.stage.seats s.pool.place) ++ s.seats

/-- A value that is counted has its seat in its slot. -/
theorem seats_count (s : Traffic α) (h : Handle) (v : α) :
    (⟨s.pool.place h, .value v⟩ :: s.seats).Perm ({ s with held := (h, v) :: s.held }).seats :=
  List.perm_middle.symm

/-- The seats of a call, and those of all others. -/
theorem allSeats_split (s : Traffic α) (before rest after : List (Call α)) :
    (s.allSeats (before ++ rest ++ after)).Perm (rest.flatMap (·.stage.seats s.pool.place) ++
      (s.seats ++ (before ++ after).flatMap (·.stage.seats s.pool.place))) := by
  simp only [allSeats, List.flatMap_append]
  generalize before.flatMap _ = first, rest.flatMap _ = mine, after.flatMap _ = last
  have hCalls : (first ++ mine ++ last).Perm (mine ++ (first ++ last)) := by
    rw [← List.append_assoc]
    exact List.perm_append_comm.append_right last
  apply (hCalls.append_right s.seats).trans
  rw [List.append_assoc]
  exact List.perm_append_comm.append_left mine

theorem allSeats_concat (s : Traffic α) (calls : List (Call α)) (t : Call α) :
    (s.allSeats (calls ++ [t])).Perm (t.stage.seats s.pool.place ++ s.allSeats calls) := by
  have hSplit := s.allSeats_split calls [t] []
  rw [List.append_nil, List.append_nil, List.flatMap_singleton] at hSplit
  exact hSplit.trans (List.perm_append_comm.append_left _)

/-- A construction starts to look for a slot, or a call gets the value whose life it is to end. -/
theorem start_cases {s s' : Traffic α} {request : Request α} {stage : Stage α}
    (hStart : s.start request = some (stage, s')) :
    (∃ v, stage = .scanning v 0 ∧ s' = { s with readers := s.readers + 1 }) ∨
    ∃ h r, s.held.find? (·.1 = h) = some r ∧
      (stage = .closing r.1 r.2 ∨ stage = .moving r.1 r.2) ∧
        s' = { s with held := s.held.eraseP (·.1 = h) } := by
  cases request with
  | construct v =>
      cases hStart
      exact .inl ⟨v, rfl, rfl⟩
  | destroy h =>
      obtain ⟨r, hFind, hEq⟩ := Option.map_eq_some_iff.mp hStart
      cases hEq
      exact .inr ⟨h, r, hFind, .inl rfl, rfl⟩
  | take h =>
      obtain ⟨r, hFind, hEq⟩ := Option.map_eq_some_iff.mp hStart
      cases hEq
      exact .inr ⟨h, r, hFind, .inr rfl, rfl⟩

/-- A value that is handed over to a call has the slot that it had before. -/
theorem seats_handOver {h : Handle} {r : Handle × α} (s : Traffic α)
    (hFind : s.held.find? (·.1 = h) = some r) :
    s.seats.Perm (⟨s.pool.place r.1, .value r.2⟩ ::
      ({ s with held := s.held.eraseP (·.1 = h) } : Traffic α).seats) := by
  have hHeld := (perm_of_find? hFind).2.map fun r => (⟨s.pool.place r.1, .value r.2⟩ : Seat α)
  exact (hHeld.append_left _).trans List.perm_middle

/-- The start of a call leaves the slots with those who have them. -/
theorem allSeats_start {s s' : Traffic α} {request : Request α} {stage : Stage α}
    (hStart : s.start request = some (stage, s')) (calls : List (Call α)) :
    (allSeats { s' with calls := s'.calls + 1 } (calls ++ [⟨s'.calls, stage⟩])).Perm
      (s.allSeats calls) := by
  apply (allSeats_concat _ calls _).trans
  obtain ⟨v, rfl, rfl⟩ | ⟨h, r, hFind, hStage, rfl⟩ := start_cases hStart
  · exact List.Perm.refl _
  · have hSeats := (s.seats_handOver hFind).append_left
      (calls.flatMap (·.stage.seats s.pool.place))
    obtain rfl | rfl := hStage
    · exact (hSeats.trans List.perm_middle).symm
    · exact (hSeats.trans List.perm_middle).symm

end Traffic

variable [Stored α]

/-- What a call can do in one step, and what is left of it. -/
inductive Shift (s : Traffic α) : Stage α → Traffic.Outcome α → Prop where
  | pass {v : α} {k : Nat} {slab : Slab α} (hGet : s.pool.directory.get? k = some slab)
      (hFull : slab.head = none) :
      Shift s (.scanning v k) (.proceeded, some (.scanning v (k + 1)), s)
  | grant {v : α} {site : Place} (hOffers : s.pool.Offers site) :
      Shift s (.scanning v site.slab) (.granted site, some (.claimed v site),
        (s.withPool (s.pool.mapSlab site.slab Slab.unlink)).leave)
  | exhaust {v : α} {k : Nat} (hEnd : s.pool.slabCount ≤ k) (hLimit : s.pool.atLimit = true) :
      Shift s (.scanning v k) (.proceeded, some (.refused v (.noSlot s.pool.exhausted)),
        (s.withEnv (s.env.raise (.poolExhausted s.pool.codec.maxSlabs))).leave)
  | miss {v : α} {k : Nat} (hEnd : s.pool.slabCount ≤ k) (hRoom : s.pool.atLimit = false) :
      Shift s (.scanning v k) (.proceeded, some (.growing v), s.leave)
  | obtain {v : α} :
      Shift s (.growing v) (.obtained s.blocks, some (.grown v s.blocks),
        { s with env := s.env.allocate s.pool.slabStorage, blocks := s.blocks + 1 })
  | overtake {v : α} {block : Nat} {site : Place} (hIdle : s.readers = 0)
      (hOffers : s.pool.Offers site) :
      Shift s (.grown v block) (.granted site, some (.surplus v block (some site)),
        s.withPool (s.pool.mapSlab site.slab Slab.unlink))
  | fill {v : α} {block : Nat} (hIdle : s.readers = 0) (hFull : s.pool.vacancy? = none)
      (hLimit : s.pool.atLimit = true) :
      Shift s (.grown v block) (.proceeded, some (.surplus v block none), s)
  | append {v : α} {block : Nat} (hIdle : s.readers = 0) (hFull : s.pool.vacancy? = none)
      (hRoom : s.pool.atLimit = false) :
      Shift s (.grown v block) (.appended block ⟨s.pool.slabCount, 0⟩,
        some (.claimed v ⟨s.pool.slabCount, 0⟩),
        { s with
          pool := s.pool.append
          env := (s.pool.directory.push directoryEntry (Slab.fresh s.pool.slabCapacity).unlink
              s.env).2.raise
            (.slabCreated s.pool.slabCount.toUInt32 s.pool.codec.slabCapacity
              s.pool.slabStorage.size) })
  | discard {v : α} {block : Nat} {site : Place} :
      Shift s (.surplus v block (some site)) (.discarded block, some (.claimed v site),
        s.withEnv (s.env.release s.pool.slabStorage))
  | surrender {v : α} {block : Nat} :
      Shift s (.surplus v block none) (.discarded block,
        some (.refused v (.noSlot s.pool.exhausted)),
        s.withEnv ((s.env.release s.pool.slabStorage).raise
          (.poolExhausted s.pool.codec.maxSlabs)))
  | refuse {v : α} {refusal last : Refusal} (hLast : last.isFault = false → last = refusal) :
      Shift s (.refused v refusal) (.refused last, none,
        s.withEnv (Stored.drop refusal.isFault v s.env).2.2)
  | store {v : α} {site : Place} :
      Shift s (.claimed v site) (.proceeded, some (.stored v site),
        s.withPool (s.pool.update site (Slot.publish v)))
  | count {v : α} {site : Place} :
      Shift s (.stored v site) (.constructed (s.pool.handle site), none,
        { s with
          pool := { s.pool with live := s.pool.live + 1 }
          env := s.env.raise
            (.constructed site.slab.toUInt32 site.offset.toUInt32 (s.pool.handle site))
          held := (s.pool.handle site, v) :: s.held })
  | close {h : Handle} {v : α} :
      Shift s (.closing h v) (.proceeded, some (.dropping h v),
        { s with
          pool := s.pool.update (s.pool.place h) Slot.retire
          env := Stored.beginDrop v s.env })
  | drop {h : Handle} {v : α} :
      Shift s (.dropping h v) (.proceeded, some (.emptied (s.pool.place h) none),
        s.withEnv (Stored.endDrop false v s.env).2.2)
  | spoil {h : Handle} {v : α} (fault : Fault) (rest : α) :
      Shift s (.dropping h v) (.broken fault, none,
        { s with
          pool := s.pool.update (s.pool.place h) (Slot.write rest)
          env := (Stored.endDrop false v s.env).2.2
          spent := (s.pool.place h, rest) :: s.spent })
  | move {h : Handle} {v : α} :
      Shift s (.moving h v) (.proceeded, some (.emptied (s.pool.place h) (some v)),
        s.withPool (s.pool.update (s.pool.place h) Slot.retire))
  | release {site : Place} {given : Option α} :
      Shift s (.emptied site given) (.released site, some (.released given),
        s.withPool (s.pool.reclaim site))
  | uncount {given : Option α} :
      Shift s (.released given) (.returned given, none,
        s.withPool { s.pool with live := s.pool.live - 1 })

namespace Traffic

variable {s s' : Traffic α} {t : Stage α} {act : Act α} {rest : Option (Stage α)}
  {others : List (Seat α)} {v : α} {site : Place} {k block : Nat} {h : Handle}

/-- A call that passes the slabs claims a slot, goes on, or comes to their end. -/
theorem shift_scan (housed : s.pool.Housed others) : Shift s (.scanning v k) (s.scan v k) := by
  rw [scan]
  cases hGet : s.pool.directory.get? k with
  | none =>
      have hEnd : s.pool.slabCount ≤ k := Array.getElem?_eq_none_iff.mp hGet
      cases hLimit : s.pool.atLimit with
      | true => exact .exhaust hEnd hLimit
      | false => exact .miss hEnd hLimit
  | some slab =>
      cases hHead : slab.head with
      | none =>
          simp only [hHead]
          exact .pass hGet hHead
      | some offset =>
          have hOffers : s.pool.Offers ⟨k, offset⟩ := ⟨slab, hGet, hHead⟩
          simp only [hHead, housed.tidy.claim_eq hOffers]
          exact .grant hOffers

/-- Who has the directory alone looks again before appending. -/
theorem shift_settle (housed : s.pool.Housed others) (hIdle : s.readers = 0) :
    Shift s (.grown v block) (s.settle v block) := by
  rw [settle]
  cases hVacancy : s.pool.vacancy? with
  | some site =>
      have hOffers := offers_vacancy hVacancy
      simp only [housed.tidy.claim_eq hOffers]
      exact .overtake hIdle hOffers
  | none =>
      cases hLimit : s.pool.atLimit with
      | true => exact .fill hIdle hVacancy hLimit
      | false =>
          rcases hPush : s.pool.directory.push directoryEntry
            (Slab.fresh s.pool.slabCapacity).unlink s.env with ⟨directory, env⟩
          obtain rfl : directory = s.pool.append.directory := by
            rw [← fst_push s.pool s.env, hPush]
          obtain rfl : (s.pool.directory.push directoryEntry
            (Slab.fresh s.pool.slabCapacity).unlink s.env).2 = env := congrArg Prod.snd hPush
          exact .append hIdle hVacancy hLimit

theorem shift_discard {found : Option Place} :
    Shift s (.surplus v block found) (s.discard v block found) := by
  cases found with
  | some site => exact .discard
  | none => exact .surrender

/-- Who is refused drops the value. -/
theorem shift_refuse {refusal : Refusal} : Shift s (.refused v refusal) (s.refuse v refusal) := by
  rw [refuse]
  rcases hDrop : Stored.drop refusal.isFault v s.env with ⟨_ | fault, rest, env⟩
  · obtain rfl : (Stored.drop refusal.isFault v s.env).2.2 = env := congrArg (·.2.2) hDrop
    exact .refuse fun _ => rfl
  · obtain rfl : (Stored.drop refusal.isFault v s.env).2.2 = env := congrArg (·.2.2) hDrop
    exact .refuse fun hFault => nomatch hFault

/-- A drop begins with the value in its slot. -/
theorem shift_beginDrop (housed : s.pool.Housed (⟨s.pool.place h, .value v⟩ :: others)) :
    Shift s (.closing h v) (s.beginDrop h) := by
  obtain ⟨hSlab, slot, hSlot, -, hRead⟩ := housed.exists_slot List.mem_cons_self
  have hHas : s.pool.hasSlab h = true := decide_eq_true hSlab
  simp only [beginDrop, hHas, if_true, hSlot, Option.bind_some, hRead]
  exact .close

/-- A drop ends well or breaks off. -/
theorem shift_endDrop : Shift s (.dropping h v) (s.endDrop h v) := by
  rw [endDrop]
  rcases hDrop : Stored.endDrop false v s.env with ⟨_ | fault, rest, env⟩
  · obtain rfl : (Stored.endDrop false v s.env).2.2 = env := congrArg (·.2.2) hDrop
    exact .drop
  · obtain rfl : (Stored.endDrop false v s.env).2.2 = env := congrArg (·.2.2) hDrop
    exact .spoil fault rest

theorem shift_moveOut (housed : s.pool.Housed (⟨s.pool.place h, .value v⟩ :: others)) :
    Shift s (.moving h v) (s.moveOut h) := by
  have hHas : s.pool.hasSlab h = true := decide_eq_true (housed.exists_slot List.mem_cons_self).1
  simp only [moveOut, hHas, if_true, housed.value?_eq List.mem_cons_self]
  exact .move

/-- An empty slot goes back to the free list. -/
theorem shift_giveBack {given : Option α} {tenant : Tenant α}
    (housed : s.pool.Housed (⟨site, tenant⟩ :: others)) :
    Shift s (.emptied site given) (s.giveBack site given) := by
  have hTaken : s.pool.isFree site = false := housed.tidy.isFree_of_taken List.mem_cons_self
  simp only [giveBack, hTaken]
  exact .release

/-- Whose the slots are decides which of its steps a call can take. -/
theorem shift_of_advance {outcome : Outcome α}
    (housed : s.pool.Housed (t.seats s.pool.place ++ others))
    (hAdvance : s.advance t = some outcome) : Shift s t outcome := by
  cases t with
  | scanning v k =>
      cases hAdvance
      exact shift_scan housed
  | growing v =>
      cases hAdvance
      exact .obtain
  | grown v block =>
      rw [advance] at hAdvance
      split at hAdvance
      · next hIdle =>
          cases hAdvance
          exact shift_settle housed hIdle
      · cases hAdvance
  | surplus v block found =>
      cases hAdvance
      exact shift_discard
  | refused v refusal =>
      cases hAdvance
      exact shift_refuse
  | claimed v site =>
      cases hAdvance
      exact .store
  | stored v site =>
      cases hAdvance
      exact .count
  | closing h v =>
      cases hAdvance
      exact shift_beginDrop housed
  | dropping h v =>
      cases hAdvance
      exact shift_endDrop
  | moving h v =>
      cases hAdvance
      exact shift_moveOut housed
  | emptied site given =>
      cases hAdvance
      exact shift_giveBack housed
  | released given =>
      cases hAdvance
      exact .uncount

/-- The pool is as the calls and the values that have been returned say. -/
structure Fits (s : Traffic α) (calls : List (Call α)) : Prop where
  packs : ∃ offsetBits slabBits, s.pool.codec.Packs offsetBits slabBits
  within : s.pool.slabCount ≤ s.pool.codec.maxSlabs.toNat
  housed : s.pool.Housed (s.allSeats calls)
  readers : s.readers = calls.countP (·.stage.scans)
  /-- The calls have their numbers in the order of their starts, and the next number is larger. -/
  numbers : (calls.map Call.number ++ [s.calls]).Pairwise (· < ·)

end Traffic

/-- A step leaves the slots with those who have them then. -/
theorem Shift.housed {s : Traffic α} {t : Stage α} {outcome : Traffic.Outcome α}
    {others : List (Seat α)} (shift : Shift s t outcome) {offsetBits slabBits : Nat}
    (packs : s.pool.codec.Packs offsetBits slabBits)
    (hWithin : s.pool.slabCount ≤ s.pool.codec.maxSlabs.toNat)
    (housed : s.pool.Housed (t.seats s.pool.place ++ (s.seats ++ others))) :
    outcome.2.2.pool.Housed (outcome.2.1.elim [] (Stage.seats outcome.2.2.pool.place) ++
      (outcome.2.2.seats ++ others)) := by
  cases shift with
  | pass | exhaust | miss | obtain | fill | discard | surrender | refuse | drop => exact housed
  | grant hOffers | overtake _ hOffers => exact housed.claim hOffers
  | append => exact housed.append (slabCapacity_pos packs) (slabCapacity_lt _)
  | store => exact housed.update fun slot _ => ⟨rfl, slot.read?_write _⟩
  | @count v site =>
      have hPlace := housed.place_handle packs hWithin List.mem_cons_self
      have hSeats := (Traffic.seats_count s (s.pool.handle site) v).append_right others
      rw [hPlace] at hSeats
      exact (housed.perm hSeats).withLive _
  | close | move => exact housed.retire
  | spoil _ rest => exact housed.spoil rest
  | release => exact housed.reclaim (slabCapacity_lt _) fun _ hFits => congrArg Prod.snd hFits
  | uncount => exact housed.withLive _

namespace Shift

variable {s : Traffic α} {t : Stage α} {outcome : Traffic.Outcome α}

theorem codec_eq (shift : Shift s t outcome) : outcome.2.2.pool.codec = s.pool.codec := by
  cases shift <;> rfl

theorem place_eq (shift : Shift s t outcome) : outcome.2.2.pool.place = s.pool.place := by
  cases shift <;> rfl

theorem calls_eq (shift : Shift s t outcome) : outcome.2.2.calls = s.calls := by
  cases shift <;> rfl

/-- A slab is appended below the limit when no slab has a free slot and nobody holds the directory;
no other step changes the number of slabs. -/
theorem slabCount_eq (shift : Shift s t outcome) :
    (outcome.2.2.pool.slabCount = s.pool.slabCount ∧ outcome.1.appends = []) ∨
    ∃ block, outcome.1 = .appended block ⟨s.pool.slabCount, 0⟩ ∧
      outcome.2.2.pool.slabCount = s.pool.slabCount + 1 ∧ s.pool.vacancy? = none ∧
        s.pool.atLimit = false ∧ s.readers = 0 := by
  cases shift with
  | append hIdle hFull hRoom => exact .inr ⟨_, rfl, slabCount_append _, hFull, hRoom, hIdle⟩
  | grant | overtake => exact .inl ⟨slabCount_mapSlab .., rfl⟩
  | store | close | spoil | move => exact .inl ⟨slabCount_update .., rfl⟩
  | release => exact .inl ⟨slabCount_reclaim .., rfl⟩
  | _ => exact .inl ⟨rfl, rfl⟩

/-- Who holds the directory is counted. -/
theorem readers_eq (shift : Shift s t outcome) {n : Nat}
    (hReaders : s.readers = n + if t.scans then 1 else 0) :
    outcome.2.2.readers = n + if outcome.2.1.any Stage.scans then 1 else 0 := by
  cases shift with
  | grant | exhaust | miss => exact congrArg (· - 1) hReaders
  | _ => exact hReaders

end Shift

/-- Numbers in order that end with the next one stay so when that one is given away. -/
theorem numbers_concat {numbers : List Nat} {n : Nat}
    (h : (numbers ++ [n]).Pairwise (· < ·)) : (numbers ++ [n] ++ [n + 1]).Pairwise (· < ·) := by
  rw [List.pairwise_append]
  refine ⟨h, List.pairwise_singleton .., ?_⟩
  intro number hNumber last hLast
  obtain rfl := List.mem_singleton.mp hLast
  obtain hOld | hNew := List.mem_append.mp hNumber
  · exact ((List.pairwise_append.mp h).2.2 number hOld n List.mem_cons_self).trans
      (Nat.lt_succ_self n)
  · obtain rfl := List.mem_singleton.mp hNew
    exact Nat.lt_succ_self _

namespace Traffic.Fits

variable {s : Traffic α} {calls before after : List (Call α)} {t : Call α}

/-- The seats of a call may be looked at before those of all others. -/
theorem front (fits : s.Fits (before ++ t :: after)) :
    s.pool.Housed (t.stage.seats s.pool.place ++
      (s.seats ++ (before ++ after).flatMap (·.stage.seats s.pool.place))) := by
  have hSplit := s.allSeats_split before [t] after
  rw [List.append_assoc, List.singleton_append, List.flatMap_singleton] at hSplit
  exact fits.housed.perm hSplit

/-- Every step keeps the calls and the pool in agreement. -/
theorem advance {outcome : Outcome α} (fits : s.Fits (before ++ t :: after))
    (shift : Shift s t.stage outcome) :
    outcome.2.2.Fits (before ++ t.left outcome.2.1 ++ after) := by
  obtain ⟨offsetBits, slabBits, packs⟩ := fits.packs
  have hCodec := shift.codec_eq
  refine ⟨⟨offsetBits, slabBits, hCodec ▸ packs⟩, ?_, ?_, ?_, ?_⟩
  · rw [hCodec]
    obtain ⟨hSame, -⟩ | ⟨_, -, hMore, -, hRoom, -⟩ := shift.slabCount_eq
    · rw [hSame]
      exact fits.within
    · rw [hMore]
      exact Nat.lt_of_not_le (of_decide_eq_false hRoom)
  · have hHoused := shift.housed packs fits.within fits.front
    have hSplit := outcome.2.2.allSeats_split before (t.left outcome.2.1) after
    rw [Call.flatMap_left, shift.place_eq] at hSplit
    rw [shift.place_eq] at hHoused
    exact hHoused.perm hSplit.symm
  · have hBefore := fits.readers
    rw [List.countP_append, List.countP_cons, ← Nat.add_assoc] at hBefore
    rw [shift.readers_eq hBefore, List.countP_append, List.countP_append, Call.countP_left]
    exact Nat.add_right_comm ..
  · have hLeft : ((t.left outcome.2.1).map Call.number).Sublist [t.number] := by
      cases outcome.2.1 with
      | none => exact List.nil_sublist _
      | some stage => exact List.Sublist.refl _
    have hCalls : ((before ++ t.left outcome.2.1 ++ after).map Call.number).Sublist
        ((before ++ t :: after).map Call.number) := by
      simp only [List.map_append, List.map_cons, List.append_assoc]
      exact (hLeft.append_right _).append_left _
    rw [shift.calls_eq]
    exact fits.numbers.sublist (hCalls.append_right _)

/-- The start of a call keeps the calls and the pool in agreement. -/
theorem start {request : Request α} {stage : Stage α} {s' : Traffic α} (fits : s.Fits calls)
    (hStart : s.start request = some (stage, s')) :
    ({ s' with calls := s'.calls + 1 } : Traffic α).Fits (calls ++ [⟨s'.calls, stage⟩]) := by
  have hPerm := (allSeats_start hStart calls).symm
  have hNumbers := numbers_concat fits.numbers
  obtain ⟨v, rfl, rfl⟩ | ⟨h, r, hFind, hStage, rfl⟩ := start_cases hStart
  · refine ⟨fits.packs, fits.within, fits.housed.perm hPerm, ?_, by simpa using hNumbers⟩
    rw [List.countP_append, ← fits.readers]
    rfl
  · refine ⟨fits.packs, fits.within, fits.housed.perm hPerm, ?_, by simpa using hNumbers⟩
    rw [List.countP_append, ← fits.readers]
    obtain rfl | rfl := hStage <;> rfl

end Traffic.Fits
end TaskMemory.Pool

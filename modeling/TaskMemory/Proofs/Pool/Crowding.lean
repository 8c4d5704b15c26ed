import TaskMemory.Proofs.Pool.Allotment

/-!
Constructions that are refused. A construction looks at the slabs one after the other, and other
calls take slots and put them back meanwhile. If it is refused, then at some moment of its course
the pool was at its limit with no free slot, or with fewer free slots than constructions that were
looking for one. The invariant behind this: unless there was such a moment, the slabs from any one
on that the construction has come to have room for all that look for a slot there.
-/
namespace TaskMemory.Pool

variable {α : Type}

/-- Whether a call looks for a slot in a slab from `k` on. -/
def Stage.seeks (k : Nat) : Stage α → Bool
  | .scanning _ next => k ≤ next
  | _ => false

/-- Whether a call has been found to get no slot. -/
def Stage.denied : Stage α → Bool
  | .surplus _ _ none | .refused _ (.noSlot _) => true
  | _ => false

/-- A call that looks for a slot looks for one in some slab. -/
theorem Stage.seeks_zero (stage : Stage α) : stage.seeks 0 = stage.scans := by
  cases stage with
  | scanning v next => exact decide_eq_true (Nat.zero_le next)
  | _ => rfl

namespace Traffic

/-- How many slots of the slabs from `k` on are taken or looked for. -/
def demand (s : Traffic α) (calls : List (Call α)) (k : Nat) : Nat :=
  (Seat.sites (s.allSeats calls)).countP (k ≤ ·.slab) + calls.countP (·.stage.seeks k)

/-- How many slots there are in the slabs from `k` on. -/
def room (s : Traffic α) (k : Nat) : Nat := (s.pool.slabCount - k) * s.pool.slabCapacity

theorem countP_slab (places : List Place) (k : Nat) : places.countP (k ≤ ·.slab) =
    places.countP (·.slab = k) + places.countP (k + 1 ≤ ·.slab) := by
  induction places with
  | nil => rfl
  | cons site rest ih =>
      simp only [List.countP_cons, decide_eq_true_eq]
      split <;> split <;> split <;> omega

/-- The demand of some calls, and of the others. -/
theorem demand_split (s : Traffic α) (before rest after : List (Call α)) (k : Nat) :
    s.demand (before ++ rest ++ after) k =
      (Seat.sites (rest.flatMap (·.stage.seats s.pool.place) ++ s.seats)).countP (k ≤ ·.slab) +
        rest.countP (·.stage.seeks k) +
      ((Seat.sites ((before ++ after).flatMap (·.stage.seats s.pool.place))).countP (k ≤ ·.slab) +
        (before ++ after).countP (·.stage.seeks k)) := by
  rw [demand, (s.sites_split before rest after).countP_eq]
  simp only [List.countP_append]
  omega

/-- The start of another call leaves the demand for the slabs after the first as it is. -/
theorem demand_start {s s' : Traffic α} {request : Request α} {stage : Stage α}
    {calls : List (Call α)} {k : Nat}
    (hStart : s.start request = some (stage, s')) (hk : k ≠ 0) :
    demand { s' with calls := s'.calls + 1 } (calls ++ [⟨s'.calls, stage⟩]) k =
      s.demand calls k := by
  have hSites := ((allSeats_start hStart calls).map Seat.site).countP_eq (k ≤ ·.slab)
  have hSeeks : stage.seeks k = false := by
    obtain ⟨v, rfl, -⟩ | ⟨_, _, -, rfl | rfl, -⟩ := start_cases hStart
    · exact decide_eq_false fun hLe => hk (Nat.le_zero.mp hLe)
    · rfl
    · rfl
  rw [demand, demand, hSites, List.countP_append, List.countP_singleton, hSeeks]
  rfl

/-- The calls under way after a step are the others and what is left of the call. -/
theorem mem_left {before after : List (Call α)} {t c : Call α} {rest : Option (Stage α)}
    (hMem : c ∈ before ++ t.left rest ++ after) :
    (c ∈ before ++ t :: after) ∨ rest = some c.stage ∧ c.number = t.number := by
  rw [List.append_assoc, List.mem_append, List.mem_append] at hMem
  obtain hBefore | hLeft | hAfter := hMem
  · exact .inl (List.mem_append_left _ hBefore)
  · cases rest with
    | none => cases hLeft
    | some stage =>
        obtain rfl := List.mem_singleton.mp hLeft
        exact .inr ⟨rfl, rfl⟩
  · exact .inl (List.mem_append_right _ (List.mem_cons_of_mem _ hAfter))

end Traffic

variable [Stored α]

namespace Shift

variable {s : Traffic α} {t : Stage α} {outcome : Traffic.Outcome α} {k : Nat}

/-- Nobody appends a slab while a call passes the slabs. -/
theorem slabCount_of_busy (shift : Shift s t outcome) (hBusy : s.readers ≠ 0) :
    outcome.2.2.pool.slabCount = s.pool.slabCount := by
  obtain ⟨hSame, -⟩ | ⟨_, -, -, -, -, hIdle⟩ := shift.slabCount_eq
  · exact hSame
  · exact absurd hIdle hBusy

/-- A call that goes on looking has passed a slab without a free slot. -/
theorem pass_of_scanning (shift : Shift s t outcome) {v : α}
    (hLeft : outcome.2.1 = some (.scanning v k)) : ∃ next slab, t = .scanning v next ∧
      k = next + 1 ∧ s.pool.directory.get? next = some slab ∧ slab.head = none ∧
        outcome.2.2 = s := by
  cases shift with
  | pass hGet hFull =>
      cases hLeft
      exact ⟨_, _, rfl, rfl, hGet, hFull, rfl⟩
  | _ => cases hLeft

/-- Who is found to get no slot has been told so before, or sees that there is none, or has looked
at all slabs. -/
theorem denied_cases (shift : Shift s t outcome) {stage : Stage α}
    (hLeft : outcome.2.1 = some stage) (hDenied : stage.denied = true) : t.denied = true ∨
      (s.pool.vacancy? = none ∧ s.pool.atLimit = true) ∨
      ∃ v next, t = .scanning v next ∧ s.pool.slabCount ≤ next ∧ s.pool.atLimit = true := by
  cases shift with
  | exhaust hEnd hLimit => exact .inr (.inr ⟨_, _, rfl, hEnd, hLimit⟩)
  | fill _ hFull hLimit => exact .inr (.inl ⟨hFull, hLimit⟩)
  | surrender => exact .inl rfl
  | refuse | count | spoil | uncount => cases hLeft
  | _ =>
      cases hLeft
      cases hDenied

/-- A refusal for want of a slot is told to a call that had been found to get none. -/
theorem denied_of_refused (shift : Shift s t outcome) {cause : PoolError}
    (hRefused : outcome.1 = .refused (.noSlot cause)) : t.denied = true := by
  cases shift with
  | refuse hLast =>
      cases hRefused
      rw [← hLast rfl]
      rfl
  | _ => cases hRefused

/-- A call that gets a slot does not look for one any longer. Only a call that passes a slab looks
for one further on. -/
theorem seeks_le (shift : Shift s t outcome) (hBusy : s.readers ≠ 0)
    (hPass : ∀ v, outcome.2.1 ≠ some (.scanning v k)) :
    outcome.1.grants.countP (k ≤ ·.slab) + (if outcome.2.1.any (Stage.seeks k) then 1 else 0) ≤
      if t.seeks k then 1 else 0 := by
  cases shift with
  | @pass v next =>
      have hNe : next + 1 ≠ k := fun hEq => hPass v (by rw [hEq])
      simp only [Act.grants, List.countP_nil, Option.any_some, Stage.seeks, decide_eq_true_eq]
      split <;> split <;> omega
  | grant => simp [Act.grants, Stage.seeks]
  | overtake hIdle | append hIdle => exact absurd hIdle hBusy
  | _ => simp [Act.grants, Stage.seeks]

end Shift

namespace Traffic

variable {s : Traffic α} {calls before after : List (Call α)} {t : Call α} {outcome : Outcome α}
  {k : Nat}

/-- While the directory is held, no step makes the demand for the slabs from `k` on grow, unless it
takes a construction there. -/
theorem demand_le (fits : s.Fits (before ++ t :: after)) (shift : Shift s t.stage outcome)
    (hBusy : s.readers ≠ 0) (hPass : ∀ v, outcome.2.1 ≠ some (.scanning v k)) :
    outcome.2.2.demand (before ++ t.left outcome.2.1 ++ after) k ≤
      s.demand (before ++ t :: after) k := by
  obtain ⟨_, _, packs⟩ := fits.packs
  have hSites := (shift.sites_perm packs fits.within fits.front).countP_eq (k ≤ ·.slab)
  have hSeeks := shift.seeks_le hBusy hPass
  have hBefore := s.demand_split before [t] after k
  rw [List.append_assoc, List.singleton_append, List.flatMap_singleton, List.countP_singleton]
    at hBefore
  rw [outcome.2.2.demand_split, hBefore, Call.flatMap_left, Call.countP_left, shift.place_eq]
  rw [shift.place_eq] at hSites
  simp only [List.countP_append] at hSites ⊢
  omega

/-- A construction that passes a full slab is looking in slabs that have as much room as before for
what is asked of them. -/
theorem demand_pass {v : α} {slab : Slab α} (fits : s.Fits (before ++ t :: after))
    (hStage : t.stage = .scanning v k) (hGet : s.pool.directory.get? k = some slab)
    (hHead : slab.head = none) :
    s.demand (before ++ [⟨t.number, .scanning v (k + 1)⟩] ++ after) (k + 1) + s.pool.slabCapacity ≤
      s.demand (before ++ t :: after) k := by
  obtain ⟨number, stage⟩ := t
  obtain rfl : stage = .scanning v k := hStage
  have hSeats : s.allSeats (before ++ [⟨number, .scanning v (k + 1)⟩] ++ after) =
      s.allSeats (before ++ ⟨number, .scanning v k⟩ :: after) := by simp [allSeats, Stage.seats]
  have hTaken := fits.housed.tidy.freeCount_add_countP fits.housed.distinct hGet
  rw [fits.housed.tidy.freeCount_eq_zero hGet hHead, Nat.zero_add] at hTaken
  have hFurther : ∀ c : Call α, c.stage.seeks (k + 1) = true → c.stage.seeks k = true := by
    intro c hSeeks
    cases hStage : c.stage with
    | scanning v next =>
        simp only [hStage, Stage.seeks, decide_eq_true_eq] at hSeeks ⊢
        omega
    | _ => simp [hStage, Stage.seeks] at hSeeks
  have hBefore : before.countP (·.stage.seeks (k + 1)) ≤ before.countP (·.stage.seeks k) :=
    List.countP_mono_left fun c _ => hFurther c
  have hAfter : after.countP (·.stage.seeks (k + 1)) ≤ after.countP (·.stage.seeks k) :=
    List.countP_mono_left fun c _ => hFurther c
  have hOld : (Stage.scanning v k).seeks k = true := decide_eq_true (Nat.le_refl k)
  have hNew : (Stage.scanning v (k + 1)).seeks (k + 1) = true := decide_eq_true (Nat.le_refl _)
  rw [demand, demand, hSeats, countP_slab _ k, hTaken]
  simp only [List.countP_append, List.countP_cons, List.countP_nil, hOld, hNew, if_true]
  omega

/-- The demand for all slabs is that of the taken slots and of all calls that look for one. -/
theorem demand_zero (fits : s.Fits calls) : s.demand calls 0 =
    s.pool.capacity - s.pool.freeSlots + calls.countP (·.stage.scans) := by
  have hSlots := fits.housed.freeSlots_add_length
  simp only [demand, Nat.zero_le, decide_true, List.countP_true, List.length_map,
    Stage.seeks_zero]
  omega

/-- Slabs that have room for all who look for a slot there keep it. So do those behind a full slab
that the call passes. -/
theorem demand_advance {m : Nat} (fits : s.Fits (before ++ t :: after))
    (shift : Shift s t.stage outcome) (hBusy : s.readers ≠ 0)
    (hRoom : ∀ i ≤ m, s.demand (before ++ t :: after) i ≤ s.room i) (hk : k ≠ 0)
    (hReach : k ≤ m ∨ k = m + 1 ∧ ∃ v, outcome.2.1 = some (.scanning v k)) :
    outcome.2.2.demand (before ++ t.left outcome.2.1 ++ after) k ≤ outcome.2.2.room k := by
  have hSize : outcome.2.2.room k = s.room k := by
    rw [room, room, shift.slabCount_of_busy hBusy, slabCapacity, slabCapacity, shift.codec_eq]
  rw [hSize]
  by_cases hPass : ∃ v, outcome.2.1 = some (.scanning v k)
  · obtain ⟨v, hLeft⟩ := hPass
    obtain ⟨next, slab, hStage, rfl, hGet, hHead, hState⟩ := shift.pass_of_scanning hLeft
    have hDemand := demand_pass fits hStage hGet hHead
    have hNext := hRoom next (by omega)
    have hSplit : s.room next = s.room (next + 1) + s.pool.slabCapacity := by
      have hLt : next < s.pool.slabCount := get?_lt hGet
      rw [room, room, ← Nat.succ_mul]
      congr 1
      omega
    rw [hState, hLeft]
    exact Nat.le_of_add_le_add_right (hDemand.trans (hNext.trans_eq hSplit))
  · have hBound : k ≤ m := hReach.resolve_right fun h => hPass h.2
    exact (demand_le fits shift hBusy fun v hLeft => hPass ⟨v, hLeft⟩).trans (hRoom k hBound)

/-- A call that passes the slabs is one of the readers. -/
theorem Fits.readers_ne_zero {v : α} {next : Nat} (fits : s.Fits calls) (hMem : t ∈ calls)
    (hStage : t.stage = .scanning v next) : s.readers ≠ 0 := by
  rw [fits.readers]
  exact (List.countP_pos_iff.mpr ⟨t, hMem, by rw [hStage]; rfl⟩).ne'

/-- A pool at its limit has as many slabs as it may have. -/
theorem Fits.slabCount_eq (fits : s.Fits calls) (hLimit : s.pool.atLimit = true) :
    s.pool.slabCount = s.pool.codec.maxSlabs.toNat :=
  Nat.le_antisymm fits.within (of_decide_eq_true hLimit)

/-- A moment at which a call is under way and there are no free slots, or fewer than constructions
that look for one. -/
structure Crowded (number : Nat) (x : Crowd (Traffic α) (Call α)) : Prop where
  underway : ∃ t ∈ x.underway, t.number = number
  scarce : x.shared.pool.freeSlots = 0 ∨
    x.shared.pool.freeSlots < x.underway.countP (·.stage.scans)

/-- A crowded moment at which there are as many slabs as a pool can have. -/
structure CrowdedAtLimit (p : Pool α) (number : Nat) (x : Crowd (Traffic α) (Call α)) : Prop extends
    Crowded number x where
  limit : x.shared.pool.slabCount = p.codec.maxSlabs.toNat

/-- There was a crowded moment of the call, with as many slabs as there are now. -/
def Beset (x₀ : Crowd (Traffic α) (Call α)) (moves : List (Move (Request α))) (s : Traffic α)
    (number : Nat) : Prop :=
  rules.Once x₀ moves fun y => Crowded number y ∧ y.shared.pool.slabCount = s.pool.slabCount

/-- What a construction can say along the moves so far. While it looks for a slot, the slabs from
each one on that it has come to have room for all who look for one there, unless there was a
crowded moment. When it has been found to get no slot, there was one with the pool at its limit. -/
structure Warrants (p : Pool α) (x₀ : Crowd (Traffic α) (Call α)) (moves : List (Move (Request α)))
    (s : Traffic α) (calls : List (Call α)) : Prop where
  scanning : ∀ t ∈ calls, ∀ v next, t.stage = .scanning v next →
    (∀ k ≤ next, s.demand calls k ≤ s.room k) ∨ Beset x₀ moves s t.number
  denied : ∀ t ∈ calls, t.stage.denied = true → rules.Once x₀ moves (CrowdedAtLimit p t.number)

variable {p : Pool α} {x₀ : Crowd (Traffic α) (Call α)} {moves : List (Move (Request α))}
  {s' : Traffic α} {calls' : List (Call α)} {move : Move (Request α)} {v : α} {next number : Nat}

theorem Beset.concat (beset : Beset x₀ moves s number)
    (hSlabs : s'.pool.slabCount = s.pool.slabCount) : Beset x₀ (moves ++ [move]) s' number := by
  rw [Beset, hSlabs]
  exact Rules.Once.concat beset move

/-- Either this is a crowded moment, or all slabs together have room for all. -/
theorem room_or_beset (hRun : (rules.run x₀ moves).2 = ⟨s, calls⟩) (fits : s.Fits calls)
    (hMem : t ∈ calls) (hRoom : ∀ k ≠ 0, k ≤ next → s.demand calls k ≤ s.room k) :
    (∀ k ≤ next, s.demand calls k ≤ s.room k) ∨ Beset x₀ moves s t.number := by
  by_cases hCrowd : s.pool.freeSlots < calls.countP (·.stage.scans)
  · right
    apply Rules.once_now
    rw [hRun]
    exact ⟨⟨⟨t, hMem, rfl⟩, .inr hCrowd⟩, rfl⟩
  · left
    intro k hk
    by_cases hZero : k = 0
    · have hSlots := fits.housed.freeSlots_add_length
      have hSize : s.room 0 = s.pool.capacity := rfl
      rw [hZero, demand_zero fits, hSize]
      omega
    · exact hRoom k hZero hk

/-- A call that starts looks at all slabs, so the first one has room enough or the call is beset. -/
theorem Warrants.start {request : Request α} {stage : Stage α}
    (warrants : Warrants p x₀ moves s calls) (fits : s.Fits calls)
    (hStart : s.start request = some (stage, s'))
    (hRun : (rules.run x₀ (moves ++ [move])).2 =
      ⟨{ s' with calls := s'.calls + 1 }, calls ++ [⟨s'.calls, stage⟩]⟩) :
    Warrants p x₀ (moves ++ [move]) { s' with calls := s'.calls + 1 }
      (calls ++ [⟨s'.calls, stage⟩]) := by
  obtain ⟨hPool, -⟩ := start_keeps hStart
  have hFits := fits.start hStart
  constructor
  · intro c hMem v next hStage
    obtain hOld | hNew := List.mem_append.mp hMem
    · obtain hRoom | beset := warrants.scanning c hOld v next hStage
      · apply room_or_beset hRun hFits hMem
        intro k hk hLe
        rw [demand_start hStart hk, room, hPool]
        exact hRoom k hLe
      · exact .inr (beset.concat (congrArg slabCount hPool))
    · obtain rfl := List.mem_singleton.mp hNew
      apply room_or_beset hRun hFits hMem
      intro k hk hLe
      obtain ⟨_, rfl, -⟩ | ⟨_, _, -, rfl | rfl, -⟩ := start_cases hStart
      · cases hStage
        exact absurd (Nat.le_zero.mp hLe) hk
      · cases hStage
      · cases hStage
  · intro c hMem hDenied
    obtain hOld | hNew := List.mem_append.mp hMem
    · exact (warrants.denied c hOld hDenied).concat move
    · obtain rfl := List.mem_singleton.mp hNew
      obtain ⟨_, rfl, -⟩ | ⟨_, _, -, rfl | rfl, -⟩ := start_cases hStart <;> cases hDenied

/-- Every step keeps the warrants: who comes to a further slab has passed one without a free
slot. -/
theorem Warrants.advance (warrants : Warrants p x₀ moves s (before ++ t :: after))
    (fits : s.Fits (before ++ t :: after)) (hCodec : s.pool.codec = p.codec)
    (shift : Shift s t.stage outcome) (hBefore : (rules.run x₀ moves).2 = ⟨s, before ++ t :: after⟩)
    (hRun : (rules.run x₀ (moves ++ [move])).2 =
      ⟨outcome.2.2, before ++ t.left outcome.2.1 ++ after⟩) :
    Warrants p x₀ (moves ++ [move]) outcome.2.2 (before ++ t.left outcome.2.1 ++ after) := by
  have hFits := fits.advance shift
  have hHere : t ∈ before ++ t :: after := List.mem_append_right _ List.mem_cons_self
  have hEqual (hLimit : s.pool.atLimit = true) : s.pool.slabCount = p.codec.maxSlabs.toNat :=
    hCodec ▸ fits.slabCount_eq hLimit
  constructor
  · intro c hMem v next hStage
    obtain hOld | ⟨hLeft, hNumber⟩ := mem_left hMem
    · -- The call that looks for a slot holds the directory while another one takes its step.
      have hBusy := fits.readers_ne_zero hOld hStage
      obtain hRoom | beset := warrants.scanning c hOld v next hStage
      · exact room_or_beset hRun hFits hMem fun k hk hLe =>
          demand_advance fits shift hBusy hRoom hk (.inl hLe)
      · exact .inr (beset.concat (shift.slabCount_of_busy hBusy))
    · rw [hStage] at hLeft
      obtain ⟨last, _, hPassing, rfl, -⟩ := shift.pass_of_scanning hLeft
      have hBusy := fits.readers_ne_zero hHere hPassing
      obtain hRoom | beset := warrants.scanning t hHere v last hPassing
      · apply room_or_beset hRun hFits hMem
        intro k hk hLe
        apply demand_advance fits shift hBusy hRoom hk
        obtain hLt | rfl := Nat.lt_or_eq_of_le hLe
        · exact .inl (Nat.le_of_lt_succ hLt)
        · exact .inr ⟨rfl, v, hLeft⟩
      · rw [hNumber]
        exact .inr (beset.concat (shift.slabCount_of_busy hBusy))
  · intro c hMem hDenied
    obtain hOld | ⟨hLeft, hNumber⟩ := mem_left hMem
    · exact (warrants.denied c hOld hDenied).concat move
    · rw [hNumber]
      apply Rules.Once.concat
      obtain hAlready | ⟨hFull, hLimit⟩ | ⟨v, next, hStage, hEnd, hLimit⟩ :=
        shift.denied_cases hLeft hDenied
      · exact warrants.denied t hHere hAlready
      · apply Rules.once_now
        rw [hBefore]
        exact ⟨⟨⟨t, hHere, rfl⟩, .inl (fits.housed.tidy.freeSlots_eq_zero hFull)⟩, hEqual hLimit⟩
      · -- Behind the last slab there is no room, and the call itself looks for a slot there.
        obtain hRoom | beset := warrants.scanning t hHere v next hStage
        · have hNone : s.room next = 0 := by rw [room, Nat.sub_eq_zero_of_le hEnd, Nat.zero_mul]
          have hSeeks : 0 < (before ++ t :: after).countP (·.stage.seeks next) :=
            List.countP_pos_iff.mpr ⟨t, hHere, by simp [hStage, Stage.seeks]⟩
          have hLe := hRoom next (Nat.le_refl next)
          rw [hNone, demand] at hLe
          omega
        · apply Rules.Once.imp beset
          rintro y ⟨crowded, hSlabs⟩
          exact ⟨crowded, hSlabs.trans (hEqual hLimit)⟩

/-- A move that does nothing keeps the warrants. -/
theorem Warrants.stay (warrants : Warrants p x₀ moves s calls) :
    Warrants p x₀ (moves ++ [move]) s calls where
  scanning c hMem v next hStage :=
    (warrants.scanning c hMem v next hStage).imp_right fun beset => beset.concat rfl
  denied c hMem hDenied := (warrants.denied c hMem hDenied).concat move

/-- The warrants hold along any moves, by induction from one to the next. -/
theorem run_warrants {o : PoolOptions} (hCreate : Pool.create o = .ok p)
    (env : Environment) (moves : List (Move (Request α))) :
    Warrants p (opening p env) moves (rules.run (opening p env) moves).2.shared
      (rules.run (opening p env) moves).2.underway := by
  induction moves using List.reverseRecOn with
  | nil => exact ⟨nofun, nofun⟩
  | append_singleton moves move ih =>
      have tracks := run_tracks hCreate env moves
      have hRun := Rules.run_concat (R := rules) (opening p env) moves move
      generalize hBefore : (rules.run (opening p env) moves).2 = x at ih tracks hRun
      obtain hStep | ⟨request, t, s', -, hStart, hStep⟩ |
        ⟨before, t, after, act, rest, s', hCalls, -, hAdvance, hStep⟩ :=
          Rules.step_cases (R := rules) x move
      · rw [hRun, hStep]
        exact ih.stay
      · obtain ⟨stage, s₁, hCall, rfl, rfl⟩ := start_rules hStart
        rw [hStep] at hRun
        rw [hRun]
        exact ih.start tracks.fits hCall hRun
      · obtain ⟨s, calls⟩ := x
        obtain rfl : calls = before ++ t :: after := hCalls
        obtain ⟨stage, hCall, hLeft⟩ := advance_rules hAdvance
        rw [hStep, hLeft] at hRun
        rw [hRun]
        exact ih.advance tracks.fits tracks.codec (shift_of_advance tracks.fits.front hCall)
          hBefore hRun

/-- At some moment of the course of a construction that is refused, the pool was at its limit with
no free slot, or with fewer free slots than constructions that looked for one. So there was no free
slot if it never looked for one together with another. -/
theorem run_refusals {o : PoolOptions} (hCreate : Pool.create o = .ok p)
    (env : Environment) (moves : List (Move (Request α))) {place : Nat} {cause : PoolError}
    (hCall : (rules.run (opening p env) moves).2.underway[place]? = some t)
    (hRefused : (rules.step (rules.run (opening p env) moves).2 (.advance place)).1 =
      some (.refused (.noSlot cause))) :
    rules.Once (opening p env) moves (CrowdedAtLimit p t.number) ∧
    ((∀ earlier, earlier <+: moves →
        (∃ c ∈ (rules.run (opening p env) earlier).2.underway, c.number = t.number) →
        (rules.run (opening p env) earlier).2.underway.countP (·.stage.scans) ≤ 1) →
      rules.Once (opening p env) moves fun y =>
        CrowdedAtLimit p t.number y ∧ y.shared.pool.freeSlots = 0) := by
  have warrants := run_warrants hCreate env moves
  have tracks := run_tracks hCreate env moves
  have hFull : rules.Once (opening p env) moves (CrowdedAtLimit p t.number) := by
    obtain ⟨before, c, after, _, hCalls, hMove, shift, hAct⟩ := tracks.exists_shift hRefused
    cases hMove
    rw [hCalls, List.getElem?_append_right (Nat.le_refl _), Nat.sub_self] at hCall
    obtain rfl : c = t := Option.some.inj hCall
    have hMem := List.mem_append_right before (List.mem_cons_self (a := c) (l := after))
    exact warrants.denied c (hCalls ▸ hMem) (shift.denied_of_refused hAct)
  refine ⟨hFull, fun hLone => ?_⟩
  obtain ⟨earlier, hEarlier, full⟩ := hFull
  have hOne := hLone earlier hEarlier full.underway
  have hScarce := full.scarce
  exact ⟨earlier, hEarlier, full, by omega⟩

/-- A pool of two slabs with one slot each. -/
def duo : Pool Tracked :=
  { codec := ⟨0, 1, 0, 2⟩, limit := .bounded 2 }

theorem create_duo : Pool.create { slabCapacity := 1, limit := .bounded 2 } = .ok duo := rfl

/-- Both slots are taken, one construction after the other. -/
def filling : List (Move (Request Tracked)) :=
  [.start (.construct ⟨1, false⟩)] ++ List.replicate 5 (.advance 0) ++
    [.start (.construct ⟨2, false⟩)] ++ List.replicate 6 (.advance 0)

/-- A third construction looks at both slabs. -/
def third : List (Move (Request Tracked)) :=
  filling ++ [.start (.construct ⟨3, false⟩), .advance 0, .advance 0, .advance 0]

theorem run_refusals_third : ∃ t,
    (rules.run (opening duo untouched) third).2.underway[0]? = some t ∧
    (rules.step (rules.run (opening duo untouched) third).2 (.advance 0)).1 =
      some (.refused (.noSlot (.exhausted 2))) ∧
    rules.Once (opening duo untouched) third fun y =>
      CrowdedAtLimit duo t.number y ∧ y.shared.pool.freeSlots = 0 := by
  have hCall : (rules.run (opening duo untouched) third).2.underway[0]? =
      some ⟨2, .refused ⟨3, false⟩ (.noSlot (.exhausted 2))⟩ := by decide +kernel
  have hRefused : (rules.step (rules.run (opening duo untouched) third).2 (.advance 0)).1 =
      some (.refused (.noSlot (.exhausted 2))) := by decide +kernel
  refine ⟨_, hCall, hRefused, (run_refusals create_duo untouched third hCall hRefused).2 ?_⟩
  simp only [← List.mem_inits]
  decide +kernel

/-- The slot of the second slab is free again. Two constructions pass the first slab, which is full.
Then its slot is put back, and one of them takes the slot of the second slab before the other looks
there. -/
def overtaken : List (Move (Request Tracked)) :=
  filling ++ [.start (.take ⟨1⟩), .advance 0, .advance 0, .advance 0,
    .start (.construct ⟨3, false⟩), .advance 0, .start (.construct ⟨4, false⟩), .advance 1,
    .start (.take ⟨0⟩), .advance 2, .advance 2, .advance 1, .advance 0, .advance 0]

/-- A construction is refused although at every moment of its course there was a free slot. -/
theorem overtaken_refused :
    (∃ t, (rules.run (opening duo untouched) overtaken).2.underway[0]? = some t ∧ t.number = 3) ∧
    (rules.step (rules.run (opening duo untouched) overtaken).2 (.advance 0)).1 =
      some (.refused (.noSlot (.exhausted 2))) ∧
    ¬ rules.Once (opening duo untouched) overtaken fun y =>
      (∃ t ∈ y.underway, t.number = 3) ∧
        y.shared.pool.slabCount = 2 ∧ y.shared.pool.freeSlots = 0 := by
  refine ⟨⟨⟨3, .refused ⟨3, false⟩ (.noSlot (.exhausted 2))⟩, by decide +kernel, rfl⟩,
    by decide +kernel, ?_⟩
  simp only [Rules.Once, ← List.mem_inits]
  decide +kernel

end Traffic
end TaskMemory.Pool

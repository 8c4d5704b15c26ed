import Mathlib.Algebra.Order.Floor.Div
import TaskMemory.Proofs.Handle.RoundTrip
import TaskMemory.Proofs.Pool.Abreast
import TaskMemory.Proofs.Pool.Vacancy

/-!
How many slabs a pool has. A slab is added only when all slots are occupied, and its first slot is
occupied at once. So the number of slabs follows the largest number of slots that were ever occupied
at the same time, and nothing else in the history of a pool shows in it. That number is read off the
views: whenever a slot is claimed, a program begins to run in the construction and looks.
-/
namespace TaskMemory.Pool

variable {α : Type}

/-- The largest number of slots that were occupied at the same time. -/
def peak (views : List (Host α (Book α))) : Nat :=
  views.foldl (fun n view => max n view.pool.occupied.length) 0

theorem peak_concat (views : List (Host α (Book α))) (view : Host α (Book α)) :
    peak (views ++ [view]) = max (peak views) view.pool.occupied.length :=
  List.foldl_append

/-- The peak does not fall. -/
theorem peak_le_append (views more : List (Host α (Book α))) : peak views ≤ peak (views ++ more) := by
  induction more using List.reverseRecOn with
  | nil => rw [List.append_nil]
  | append_singleton more last ih =>
      rw [← List.append_assoc, peak_concat]
      exact ih.trans (Nat.le_max_left ..)

/-- At each view the pool has the slabs that the occupied slots have called for so far. -/
def Warranted (capacity : Nat) (views : List (Host α (Book α))) : Prop :=
  ∀ past view future, views = past ++ view :: future →
    view.pool.slabCount = peak (past ++ [view]) ⌈/⌉ capacity

namespace Warranted

variable {capacity : Nat} {views : List (Host α (Book α))} {view : Host α (Book α)}

theorem nil : Warranted capacity ([] : List (Host α (Book α))) := by
  intro past view future hSplit
  simp at hSplit

/-- A view with the slabs that the peak calls for may be added. -/
theorem concat (warranted : Warranted capacity views)
    (hView : view.pool.slabCount = peak (views ++ [view]) ⌈/⌉ capacity) :
    Warranted capacity (views ++ [view]) := by
  intro past seen future hSplit
  obtain rfl | ⟨before, last, rfl⟩ := future.eq_nil_or_concat
  · obtain ⟨rfl, hLast⟩ := List.append_inj' hSplit rfl
    obtain rfl := List.cons.inj hLast |>.1
    exact hView
  · rw [List.concat_eq_append, ← List.cons_append, ← List.append_assoc] at hSplit
    exact warranted past seen before (List.append_inj' hSplit rfl).1

theorem init (warranted : Warranted capacity (views ++ [view])) : Warranted capacity views := by
  rintro past seen future rfl
  exact warranted past seen (future ++ [view]) (by simp)

/-- The number of slabs never falls. -/
theorem pairwise (hPos : 0 < capacity) (warranted : Warranted capacity views) :
    views.Pairwise (·.pool.slabCount ≤ ·.pool.slabCount) := by
  induction views using List.reverseRecOn with
  | nil => exact .nil
  | append_singleton views last ih =>
      rw [List.pairwise_append]
      refine ⟨ih warranted.init, List.pairwise_singleton .., ?_⟩
      intro view hView other hOther
      obtain rfl := List.mem_singleton.mp hOther
      obtain ⟨past, future, rfl⟩ := List.append_of_mem hView
      rw [warranted.init past view future rfl, warranted _ other [] rfl]
      apply (gc_mul_ceilDiv hPos).monotone_l
      simpa using peak_le_append (past ++ [view]) (future ++ [other])

end Warranted

section Counting

variable {n k c count : Nat}

/-- Slots that the slabs have room for call for no further slab. -/
theorem ceilDiv_of_room (hPos : 0 < c) (hCount : count = n ⌈/⌉ c) (hRoom : k ≤ count * c) :
    count = max n k ⌈/⌉ c := by
  apply Nat.le_antisymm
  · rw [hCount]
    exact (gc_mul_ceilDiv hPos).monotone_l (Nat.le_max_left ..)
  · rw [ceilDiv_le_iff_le_mul hPos, Nat.max_le]
    exact ⟨(ceilDiv_le_iff_le_mul hPos).mp hCount.ge, hRoom.trans_eq (Nat.mul_comm ..)⟩

/-- One slot more than the slabs have calls for one slab more. -/
theorem ceilDiv_of_full (hPos : 0 < c) (hCount : count = n ⌈/⌉ c) :
    count + 1 = max n (count * c + 1) ⌈/⌉ c := by
  have hLe : n ≤ count * c :=
    ((ceilDiv_le_iff_le_mul hPos).mp hCount.ge).trans_eq (Nat.mul_comm ..)
  rw [Nat.max_eq_right (hLe.trans (Nat.le_succ _))]
  apply Nat.le_antisymm
  · apply Nat.lt_of_not_le
    rw [ceilDiv_le_iff_le_mul hPos, Nat.mul_comm]
    exact Nat.not_succ_le_self _
  · rw [ceilDiv_le_iff_le_mul hPos, Nat.mul_add_one, Nat.mul_comm c]
    exact Nat.add_le_add_left hPos _

end Counting

variable [Stored α] {m m' m₀ : Moment α} {es : List (Effect α)} {env₀ : Environment}
  {claims claims' : List Place} {closing : List (Holding α)} {w w' : Usage α} {r : Holding α}
  {capacity : Nat}

theorem Moment.Fits.length_occupied_le (fits : m.Fits) :
    m.pool.occupied.length ≤ m.pool.capacity := by
  rw [fits.length_occupied, ← fits.live_add_freeSlots_add_inits]
  omega

/-- To count a value off does not wrap around. -/
theorem Moment.Fits.live_sub_one_le (fits : m.Fits) {seat : Seat α} {rest : List (Seat α)}
    (h : (m.book.seats m.pool.place).Perm (seat :: rest)) :
    (m.pool.live - 1).toNat ≤ m.pool.live.toNat := by
  rw [fits.toNat_live_sub_one h, fits.live, h.length_eq]
  exact Nat.le_succ _

/-- What a step does to the number of the occupied slots and to the number of slabs: only a step that
begins a construction adds to them. -/
theorem Step.room_cases (step : Step m es m') (fits : m.Fits) :
    (m'.claims.length ≤ m.claims.length ∧ m'.pool.slabCount = m.pool.slabCount ∧
      m'.pool.occupied.length ≤ m.pool.occupied.length) ∨
    (m.claims.length < m'.claims.length ∧
      m'.pool.occupied.length = m.pool.occupied.length + 1 ∧
      (m'.pool.slabCount = m.pool.slabCount ∧ m'.pool.occupied.length ≤ m.pool.capacity ∨
        m'.pool.slabCount = m.pool.slabCount + 1 ∧
          m.pool.occupied.length = m.pool.capacity)) := by
  have fits' := step.fits fits
  have hBefore := fits.length_occupied
  have hAfter := fits'.length_occupied
  cases step with
  | probe | announce | reject => exact Or.inl ⟨Nat.le_refl _, rfl, Nat.le_refl _⟩
  | @claim p b claims site h =>
      have hCapacity : (p.mapSlab site.slab Slab.unlink).capacity = p.capacity :=
        congrArg (· * p.slabCapacity) (slabCount_mapSlab ..)
      refine Or.inr ⟨Nat.lt_succ_self _, ?_, Or.inl ⟨slabCount_mapSlab .., ?_⟩⟩
      · rw [hBefore, hAfter]
        rfl
      · exact fits'.length_occupied_le.trans_eq hCapacity
  | append hFull hRoom =>
      refine Or.inr ⟨Nat.lt_succ_self _, ?_, Or.inr ⟨slabCount_append _, ?_⟩⟩
      · rw [hBefore, hAfter]
        rfl
      · rw [hBefore, ← fits.live_add_freeSlots_add_inits,
          fits.housed.tidy.freeSlots_eq_zero hFull, Nat.add_zero]
  | reclaim =>
      refine Or.inl ⟨Nat.le_succ _, slabCount_reclaim .., ?_⟩
      rw [hBefore, hAfter]
      exact Nat.add_le_add_left (Nat.sub_le ..) _
  | @publish p b claims site v =>
      refine Or.inl ⟨Nat.le_succ _, slabCount_update .., Nat.le_of_eq ?_⟩
      have hLive : (p.live + 1).toNat = p.live.toNat + 1 :=
        fits.toNat_live_add_one (List.cons_ne_nil _ _)
      have hInits : claims.length + 1 = b.inits := fits.inits
      calc (p.publish site v).occupied.length
          = (p.live + 1).toNat + (b.inits - 1) := hAfter
        _ = p.live.toNat + b.inits := by omega
        _ = p.occupied.length := hBefore.symm
  | edit | close | spoil =>
      exact Or.inl ⟨Nat.le_refl _, slabCount_update .., (hAfter.trans hBefore.symm).le⟩
  | @take p b claims r h =>
      refine Or.inl ⟨Nat.le_refl _, (slabCount_update ..).trans (slabCount_reclaim ..), ?_⟩
      rw [hBefore, hAfter]
      exact Nat.add_le_add_right (fits.live_sub_one_le (Book.seats_perm p.place h)) _
  | @settle p b claims r closing h =>
      refine Or.inl ⟨Nat.le_refl _, slabCount_reclaim .., ?_⟩
      rw [hBefore, hAfter]
      exact Nat.add_le_add_right (fits.live_sub_one_le (Book.seats_settle p.place h)) _

/-- A pool has the slabs that its past and its present call for. -/
structure Usage.Sized (capacity : Nat) (w : Usage α) : Prop where
  capacity_eq : w.pool.slabCapacity = capacity
  warranted : Warranted capacity w.state.views
  slabs : w.pool.slabCount = max (peak w.state.views) w.pool.occupied.length ⌈/⌉ capacity

/-- A pool has the slabs that its past calls for, and the present calls for no more. -/
structure Usage.Surveyed (capacity : Nat) (w : Usage α) : Prop where
  capacity_eq : w.pool.slabCapacity = capacity
  warranted : Warranted capacity w.state.views
  slabs : w.pool.slabCount = peak w.state.views ⌈/⌉ capacity
  seen : w.pool.occupied.length ≤ peak w.state.views

omit [Stored α] in
/-- Whoever has just looked has the slabs that the peak calls for. -/
theorem Usage.Surveyed.sized (surveyed : w.Surveyed capacity) : w.Sized capacity where
  capacity_eq := surveyed.capacity_eq
  warranted := surveyed.warranted
  slabs := by rw [surveyed.slabs, Nat.max_eq_left surveyed.seen]

omit [Stored α] in
/-- A look keeps the survey complete. -/
theorem Usage.Sized.look (sized : w.Sized capacity) : w.look.Surveyed capacity := by
  have hPeak : peak w.look.state.views = max (peak w.state.views) w.pool.occupied.length :=
    peak_concat ..
  have hSlabs : w.pool.slabCount = peak w.look.state.views ⌈/⌉ capacity := by
    rw [hPeak]
    exact sized.slabs
  exact ⟨sized.capacity_eq, sized.warranted.concat hSlabs, hSlabs, hPeak ▸ Nat.le_max_right ..⟩

/-- A step that begins no construction keeps to the past. -/
theorem Usage.Surveyed.step (surveyed : w.Surveyed capacity) (fits : (w.moment claims).Fits)
    (step : Step (w.moment claims) es (w'.moment claims'))
    (hClaims : claims'.length ≤ claims.length) (hViews : w'.state.views = w.state.views) :
    w'.Surveyed capacity := by
  obtain ⟨-, hSlabs, hLess⟩ | ⟨hMore, -⟩ := step.room_cases fits
  · constructor
    · have hCodec : w'.pool.codec = w.pool.codec := step.codec_eq
      rw [slabCapacity, hCodec]
      exact surveyed.capacity_eq
    · exact hViews ▸ surveyed.warranted
    · exact hSlabs.trans (hViews ▸ surveyed.slabs)
    · exact hLess.trans (hViews ▸ surveyed.seen)
  · exact absurd hMore (Nat.not_lt.mpr hClaims)

/-- A step that begins a construction adds a slab only if the new slot calls for it. -/
theorem Usage.Surveyed.claim (surveyed : w.Surveyed capacity) (fits : (w.moment claims).Fits)
    (hPos : 0 < capacity) (step : Step (w.moment claims) es (w'.moment claims'))
    (hClaims : claims.length < claims'.length) (hViews : w'.state.views = w.state.views) :
    w'.Sized capacity := by
  have hCapacity : w.pool.capacity = w.pool.slabCount * capacity :=
    congrArg _ surveyed.capacity_eq
  constructor
  · have hCodec : w'.pool.codec = w.pool.codec := step.codec_eq
    rw [slabCapacity, hCodec]
    exact surveyed.capacity_eq
  · exact hViews ▸ surveyed.warranted
  · rw [hViews]
    obtain ⟨hLess, -⟩ | ⟨-, hNew, ⟨hSlabs, hRoom⟩ | ⟨hSlabs, hFull⟩⟩ := step.room_cases fits
    · exact absurd hClaims (Nat.not_lt.mpr hLess)
    · exact hSlabs.trans (ceilDiv_of_room hPos surveyed.slabs (hRoom.trans_eq hCapacity))
    · have hOccupied : w'.pool.occupied.length = w.pool.slabCount * capacity + 1 := by
        rw [← hCapacity]
        exact hNew.trans (congrArg (· + 1) hFull)
      rw [hOccupied]
      exact hSlabs.trans (ceilDiv_of_full hPos surveyed.slabs)

section Operations

variable (surveyed : w.Surveyed capacity) (follows : Follows m₀ env₀ claims closing w)
  (fits₀ : m₀.Fits) (hPos : 0 < capacity)

include surveyed follows fits₀

include hPos in
/-- A construction that comes to a slot has called for it; one that does not leaves all as it is. -/
theorem Usage.Surveyed.acquire (growing : Program α)
    (hGrowing : (growing.run w).Surveyed capacity) :
    match Host.acquire (fun w => ((), growing.run w)) w with
    | (.ok _, _, u) => (Usage.record Book.enter u).Sized capacity
    | (.error _, _, u) => Usage.Surveyed capacity u := by
  have fits := follows.fits fits₀
  have housed : w.pool.Housed (w.moment claims).seats := fits.housed
  cases hVacancy : w.pool.vacancy? with
  | some site =>
      rw [Host.acquire_of_vacancy _ housed hVacancy]
      exact surveyed.claim fits hPos (.claim hVacancy) (Nat.lt_succ_self _) rfl
  | none =>
      cases hLimit : w.pool.atLimit with
      | true =>
          rw [Host.acquire_of_atLimit _ hVacancy hLimit]
          exact surveyed.step fits (.announce _ (.poolExhausted 0)) (Nat.le_refl _) rfl
      | false =>
          rw [Host.acquire_of_room (fun w => ((), growing.run w)) hVacancy hLimit rfl]
          have fits := (growing.follows fits₀ follows).fits fits₀
          generalize growing.run w = u at hGrowing fits
          have housed : u.pool.Housed (u.moment claims).seats := fits.housed
          cases hVacancy : u.pool.vacancy? with
          | some site =>
              rw [extend_of_vacancy housed hVacancy]
              exact hGrowing.claim fits hPos (.claim hVacancy) (Nat.lt_succ_self _) rfl
          | none =>
              cases hLimit : u.pool.atLimit with
              | true =>
                  rw [extend_of_atLimit hVacancy hLimit]
                  exact hGrowing.step fits (.probe _) (Nat.le_refl _) rfl
              | false =>
                  rw [extend_of_room hVacancy hLimit]
                  exact hGrowing.claim fits hPos (.append hVacancy hLimit) (Nat.lt_succ_self _) rfl

include hPos in
/-- A construction keeps the survey: it grows the pool only where the peak rises above the slots
that there are. -/
theorem Usage.Surveyed.construct (growing building : Program α) (v : α) (failure : Option Fault)
    (hGrowing : (growing.run w).Surveyed capacity)
    (hBuilding : ∀ site u, Follows m₀ env₀ (site :: claims) closing u → u.Sized capacity →
      (building.run u).Surveyed capacity) :
    (w.construct v growing.run building.run failure).Surveyed capacity := by
  have acquired := surveyed.acquire follows fits₀ hPos growing hGrowing
  have claimed := follows.acquire fits₀ fun _ => growing.follows fits₀
  rw [← Usage.snd_make]
  rcases hAcquire : Host.acquire (fun w => ((), growing.run w)) w with ⟨refusal | site, seen, u⟩
  · rw [hAcquire] at acquired
    obtain ⟨_, _, hMake⟩ := Usage.make_of_refusal (v := v) hAcquire
    rw [hMake]
    exact ⟨acquired.capacity_eq, acquired.warranted, acquired.slabs, acquired.seen⟩
  · rw [hAcquire] at acquired claimed
    have built := hBuilding site _ claimed acquired
    have fits := (building.follows fits₀ claimed).fits fits₀
    cases failure with
    | none =>
        rw [Usage.make_of_slot hAcquire]
        exact built.step fits (.publish v) (Nat.le_succ _) rfl
    | some fault =>
        rw [Usage.make_of_fault hAcquire]
        generalize building.run (Usage.record Book.enter u) = x at built fits
        have given : Usage.Surveyed capacity
            (Usage.record Book.leave { x with pool := x.pool.reclaim site }) :=
          built.step fits .reclaim (Nat.le_succ _) rfl
        exact ⟨given.capacity_eq, given.warranted, given.slabs, given.seen⟩

variable (hFind : w.state.book.find? r.handle = some r)

include hFind

theorem Usage.Surveyed.get : (w.get r).Surveyed capacity := by
  rw [Usage.get, (follows.fits fits₀).get?_eq (List.mem_of_find?_eq_some hFind)]
  exact ⟨surveyed.capacity_eq, surveyed.warranted, surveyed.slabs, surveyed.seen⟩

theorem Usage.Surveyed.edit (change : α → α) : (w.edit r change).Surveyed capacity := by
  have fits := follows.fits fits₀
  simp only [Usage.edit, fits.get?_eq (List.mem_of_find?_eq_some hFind)]
  exact surveyed.step fits (.edit hFind _) (Nat.le_refl _) rfl

/-- A value that is taken out leaves the peak where it was. -/
theorem Usage.Surveyed.take : (w.take r).Surveyed capacity := by
  have fits := follows.fits fits₀
  simp only [Usage.take, fits.take_eq (List.mem_of_find?_eq_some hFind)]
  exact surveyed.step fits (.take hFind) (Nat.le_refl _) rfl

theorem Usage.Surveyed.begun : (w.begun r).Surveyed capacity :=
  surveyed.step (follows.fits fits₀) (.close hFind) (Nat.le_refl _) rfl

/-- The drop of a value may add slabs; when it has ended, its slot is given back or stays taken. -/
theorem Usage.Surveyed.destroy (dropping : Program α)
    (hDropping : (dropping.run (w.begun r)).Surveyed capacity) :
    (w.destroy r dropping.run).Surveyed capacity := by
  have inside : Follows m₀ env₀ claims (r :: closing) (w.inside r dropping.run) :=
    follows.inside hFind fun _ => dropping.follows fits₀
  have hInside : (w.inside r dropping.run).Surveyed capacity := by
    rw [Usage.inside]
    split
    · exact hDropping
    · exact surveyed.begun follows fits₀ hFind
  rw [follows.usage_destroy_eq fits₀ hFind rfl inside]
  generalize w.inside r dropping.run = u at inside hInside
  have fits := inside.fits fits₀
  rcases Stored.endDrop false r.value u.env with ⟨_ | fault, rest, env⟩
  · exact hInside.step fits (.settle inside.closing) (Nat.le_refl _) rfl
  · exact hInside.step fits (.spoil inside.closing rest) (Nat.le_refl _) rfl

end Operations

omit [Stored α] in
theorem Usage.Surveyed.through (surveyed : w.Surveyed capacity) {h : Handle}
    {work : Holding α → Usage α → Usage α}
    (hWork : ∀ r, w.state.book.find? r.handle = some r → (work r w).Surveyed capacity) :
    (w.through h work).Surveyed capacity := by
  rw [Usage.through]
  cases hFind : w.state.book.find? h with
  | none => exact surveyed
  | some r =>
      obtain ⟨rfl, -⟩ := Book.contents_perm hFind
      exact hWork r hFind

/-- A program looks before it does anything else, so a slot that has just been claimed is seen. By
induction on the program: what runs inside an operation is a part of it. -/
theorem Program.surveyed (fits₀ : m₀.Fits) (hPos : 0 < capacity) (program : Program α)
    (follows : Follows m₀ env₀ claims closing w) (sized : w.Sized capacity) :
    (program.run w).Surveyed capacity := by
  induction program generalizing claims closing w with
  | done => exact sized.look
  | construct v growing building failure rest ihGrowing ihBuilding ihRest =>
      apply ihRest (follows.look.construct fits₀ v failure (fun _ => growing.follows fits₀)
        fun _ _ => building.follows fits₀)
      exact (sized.look.construct follows.look fits₀ hPos growing building v failure
        (ihGrowing follows.look sized.look.sized) fun _ _ => ihBuilding).sized
  | get h rest ih =>
      apply ih (follows.look.through h fun r hFind => follows.look.get fits₀ hFind)
      exact (sized.look.through fun r hFind => sized.look.get follows.look fits₀ hFind).sized
  | edit h change rest ih =>
      apply ih (follows.look.through h fun r hFind => follows.look.edit fits₀ hFind change)
      exact (sized.look.through fun r hFind =>
        sized.look.edit follows.look fits₀ hFind change).sized
  | destroy h dropping rest ihDropping ihRest =>
      apply ihRest (follows.look.through h fun r hFind =>
        follows.look.destroy fits₀ hFind fun _ => dropping.follows fits₀)
      exact (sized.look.through fun r hFind =>
        sized.look.destroy follows.look fits₀ hFind dropping
          (ihDropping (follows.look.begun hFind)
            (sized.look.begun follows.look fits₀ hFind).sized)).sized
  | take h rest ih =>
      apply ih (follows.look.through h fun r hFind => follows.look.take fits₀ hFind)
      exact (sized.look.through fun r hFind => sized.look.take follows.look fits₀ hFind).sized

omit [Stored α] in
/-- A pool that has just been created has no slabs, and nothing has been seen of it. -/
theorem Usage.sized_start {o : PoolOptions} {p : Pool α} (h : Pool.create o = .ok p)
    (env : Environment) : (Usage.start p env).Sized o.slabCapacity.toNat := by
  obtain ⟨codec, hMake, rfl⟩ := create_eq h
  refine ⟨congrArg UInt32.toNat (Codec.slabCapacity_eq hMake), Warranted.nil, ?_⟩
  exact (zero_ceilDiv _).symm

/-- Whatever runs, in whatever nesting, and whether it succeeds, is refused or ends in a fault: at
every point at which user code can look, the pool has the slabs that are needed for the largest
number of slots that have been off the free lists at the same time, and no more. -/
theorem Program.slabCount_eq_peak {o : PoolOptions} {p : Pool α} (h : Pool.create o = .ok p)
    (env : Environment) (program : Program α) :
    (∀ past view future, (program.run (Usage.start p env)).state.views = past ++ view :: future →
      view.pool.slabCount = peak (past ++ [view]) ⌈/⌉ o.slabCapacity.toNat) ∧
    (program.run (Usage.start p env)).state.views.Pairwise
      (·.pool.slabCount ≤ ·.pool.slabCount) := by
  have fits₀ := Moment.fits_initial (α := α) h
  have sized := Usage.sized_start (α := α) h env
  obtain ⟨_, _, packs⟩ := fits₀.packs
  have hPos : 0 < o.slabCapacity.toNat := (slabCapacity_pos packs).trans_eq sized.capacity_eq
  have begun : Follows (Moment.initial p) env [] [] (Usage.start p env) :=
    ⟨⟨[], .zero _, rfl⟩, rfl, by simp [Usage.start], by simp [Usage.start]⟩
  have surveyed := program.surveyed fits₀ hPos begun sized
  exact ⟨surveyed.warranted, surveyed.warranted.pairwise hPos⟩

/-- Four slots have been taken at the same time, one of them by a construction that has failed. In the
end a single value is left, and the two slabs are still there. -/
theorem Program.slabCount_eq_peak_nested : ∃ past view,
    (nested.run (Usage.start (pair Tracked) untouched)).state.views = past ++ [view] ∧
    peak (past ++ [view]) = 4 ∧ view.pool.occupied = [⟨1, 0⟩] ∧ view.pool.slabCount = 2 := by
  let w := nested.run (Usage.start (pair Tracked) untouched)
  have hPeak : peak w.state.views = 4 := by decide +kernel
  obtain ⟨past, hPast⟩ : ∃ past, w.state.views = past ++ [⟨w.pool, w.env, w.state.book⟩] :=
    ⟨_, rfl⟩
  have hSlabs := (Program.slabCount_eq_peak create_pair untouched nested).1 past _ [] hPast
  rw [hPast] at hPeak
  exact ⟨past, _, hPast, hPeak, by decide +kernel, hSlabs.trans (congrArg (· ⌈/⌉ 2) hPeak)⟩

end TaskMemory.Pool

import TaskMemory.Proofs.Pool.Alone
import TaskMemory.Proofs.Pool.Invariant
import TaskMemory.Proofs.Pool.Ledgers
import TaskMemory.Proofs.Pool.Program
import TaskMemory.Proofs.Pool.Supply

/-!
How a pool deals out its slots and slabs to calls that run side by side, in any number and in any
order of their steps. `Allots` lists what holds at every moment: the limit on slabs, when a slab is
appended, who can be given a slot, what becomes of the blocks in the environment and what the
counter of live values says.
-/
namespace TaskMemory.Pool.Traffic

variable {α : Type} {log : List (Act α)} {s : Traffic α} {calls : List (Call α)}

/-- A slot that is handed out again has been put back in between. -/
theorem release_between {before between after : List (Act α)} {first second : Act α} {site : Place}
    (hOrder : ∀ before act after, log = before ++ act :: after → act.InOrder before)
    (hLog : log = before ++ first :: (between ++ second :: after))
    (hFirst : site ∈ first.grants) (hSecond : site ∈ second.grants) :
    site ∈ between.flatMap Act.releases := by
  have hAgain : log = (before ++ first :: between) ++ second :: after := by simp [hLog]
  have hEarly := (hOrder _ _ _ hLog).1 site hFirst
  have hLate := (hOrder _ _ _ hAgain).1 site hSecond
  have hNone : first.releases = [] := by
    cases first with
    | granted | appended => rfl
    | _ => cases hFirst
  have hGrant := List.count_pos_iff.mpr hFirst
  simp only [List.flatMap_append, List.flatMap_cons, List.count_append, hNone,
    List.count_nil] at hEarly hLate
  exact List.count_pos_iff.mp (by omega)

variable [Stored α] {p : Pool α}

/-- Calls at a new pool keep the invariant, and one piece of work says what they have done to the
environment. -/
theorem run_supplied {o : PoolOptions} (hCreate : Pool.create o = .ok p)
    (env : Environment) (moves : List (Move (Request α))) :
    Tracks p (rules.run (opening p env) moves).1 (rules.run (opening p env) moves).2.shared
        (rules.run (opening p env) moves).2.underway ∧
      ∃ work, Supplied p env (rules.run (opening p env) moves).1
        (rules.run (opening p env) moves).2.shared (rules.run (opening p env) moves).2.underway
          work := by
  apply Rules.run_keeps (P := fun x log => Tracks p log x.shared x.underway ∧
    ∃ work, Supplied p env log x.shared x.underway work)
  · exact ⟨tracks_opening hCreate env, [], supplied_opening hCreate env⟩
  · rintro s s' calls log request t ⟨tracks, work, supplied⟩ hStart
    obtain ⟨stage, s₁, hCall, rfl, rfl⟩ := start_rules hStart
    exact ⟨tracks.start hCall, work, supplied.start hCall⟩
  · rintro s s' before t after act rest log ⟨tracks, work, supplied⟩ hAdvance
    obtain ⟨stage, hCall, hLeft⟩ := advance_rules hAdvance
    have shift := shift_of_advance tracks.fits.front hCall
    obtain ⟨es, more⟩ := supplied.advance tracks shift
    rw [hLeft]
    exact ⟨tracks.advance shift, work ++ es, more⟩

/-- Calls at a new pool keep the invariant. -/
theorem run_tracks {o : PoolOptions} (hCreate : Pool.create o = .ok p)
    (env : Environment) (moves : List (Move (Request α))) :
    Tracks p (rules.run (opening p env) moves).1 (rules.run (opening p env) moves).2.shared
      (rules.run (opening p env) moves).2.underway :=
  (run_supplied hCreate env moves).1

namespace Tracks

variable (tracks : Tracks p log s calls)

include tracks

/-- A slot of the pool is free when it has been put back as often as it has been handed out. -/
theorem count_grants {site : Place} (hSlab : site.slab < s.pool.slabCount)
    (hOffset : site.offset < s.pool.slabCapacity) : (log.flatMap Act.grants).count site =
      (log.flatMap Act.releases).count site + if s.pool.isFree site then 0 else 1 := by
  rw [tracks.slots site]
  congr 1
  have hFree := tracks.fits.housed.tidy.isFree_iff hSlab hOffset
  cases hIs : s.pool.isFree site with
  | true => exact List.count_eq_zero_of_not_mem (hFree.mp hIs)
  | false =>
      have hTaken : site ∈ Seat.sites (s.allSeats calls) := by
        by_contra hNot
        rw [hFree.mpr hNot] at hIs
        cases hIs
      exact List.count_eq_one_of_mem tracks.fits.housed.distinct hTaken

/-- The slots that have been handed out and not been put back are those that somebody has. -/
theorem perm_grants : (log.flatMap Act.grants).Perm
    (log.flatMap Act.releases ++ Seat.sites (s.allSeats calls)) := by
  rw [List.perm_iff_count]
  intro site
  rw [tracks.slots, List.count_append]

/-- Every slot is free or has been handed out and not been put back. -/
theorem freeSlots_add_grants : s.pool.freeSlots + (log.flatMap Act.grants).length =
    s.pool.capacity + (log.flatMap Act.releases).length := by
  have hLength := tracks.perm_grants.length_eq
  have hSlots := tracks.fits.housed.freeSlots_add_length
  rw [List.length_append, List.length_map] at hLength
  omega

/-- A block that has become a slab is not given back. -/
theorem home {site : Place} (hMem : site ∈ log.flatMap Act.grants) :
    ∃ block ∉ log.flatMap Act.discards, (log.flatMap Act.appends)[site.slab]? = some block := by
  have hSlab : site.slab < (log.flatMap Act.appends).length :=
    (tracks.inside site hMem).trans_eq tracks.slabs.symm
  refine ⟨(log.flatMap Act.appends)[site.slab], ?_, List.getElem?_eq_getElem hSlab⟩
  have hNodup := tracks.blocks.nodup_iff.mp List.nodup_range
  have hApart := (List.nodup_append.mp (List.nodup_append.mp hNodup).1).2.2
  exact fun hDiscard => hApart _ (List.getElem_mem hSlab) _ hDiscard rfl

/-- The value behind a handle that has been returned is in its slot. -/
theorem value?_eq {r : Handle × α} (hMem : r ∈ s.held) :
    s.pool.value? (s.pool.place r.1) = some r.2 := by
  have hSeat : (⟨s.pool.place r.1, .value r.2⟩ : Seat α) ∈ s.allSeats calls :=
    List.mem_append_right _ (List.mem_append_right _ (List.mem_map_of_mem hMem))
  exact tracks.fits.housed.value?_eq hSeat

/-- No two values have one slot. -/
theorem nodup_places : (s.held.map fun r => s.pool.place r.1).Nodup := by
  have hSites := tracks.fits.housed.distinct
  rw [Seat.sites, allSeats, Traffic.seats, ← List.append_assoc, List.map_append,
    List.map_map] at hSites
  exact (List.nodup_append.mp hSites).2.1

/-- All values, dropped ones among them, have handles of 32 bits. -/
theorem held_add_spent_le : s.held.length + s.spent.length ≤ 2 ^ 32 := by
  obtain ⟨_, _, packs⟩ := tracks.fits.packs
  have hSlots := tracks.fits.housed.freeSlots_add_length
  have hCapacity := capacity_le packs tracks.fits.within
  rw [allSeats, Traffic.seats, List.length_append, List.length_append, List.length_map,
    List.length_map] at hSlots
  omega

/-- The values that are counted are there, or a call ends their life, or a drop of theirs has broken
off. -/
theorem raises_eq : log.countP Act.raises = log.countP Act.lowers +
    (s.held.length + s.spent.length + calls.countP (·.stage.ends)) := by
  rw [tracks.count, tracks.spent]
  omega

/-- What the counter says, as a number. -/
theorem toNat_live : s.pool.live.toNat =
    (s.held.length + s.spent.length + calls.countP (·.stage.ends)) % 2 ^ 64 := by
  rw [tracks.live, tracks.raises_eq, Nat.add_sub_cancel_left]
  exact UInt64.toNat_ofNat'

end Tracks

/-- What holds at a moment, after what has been done since a new pool and this environment up to
then. -/
structure Allots (p : Pool α) (env : Environment) (log : List (Act α))
    (x : Crowd (Traffic α) (Call α)) : Prop where
  codec : x.shared.pool.codec = p.codec
  limit : x.shared.pool.slabCount ≤ p.codec.maxSlabs.toNat
  /-- The slabs are those that were appended, and the next one is appended only if no slab has a
  free slot. -/
  slabs : x.shared.pool.slabCount = (log.flatMap Act.appends).length
  growth : ∀ move block site, (rules.step x move).1 = some (.appended block site) →
    x.shared.pool.freeSlots = 0 ∧ site = ⟨x.shared.pool.slabCount, 0⟩
  /-- A slot that is handed out again has been put back in between. -/
  apart : ∀ before first between second after site,
    log = before ++ first :: (between ++ second :: after) → site ∈ first.grants →
      site ∈ second.grants → site ∈ between.flatMap Act.releases
  /-- A slot is either free or handed out and not put back, and that makes up all slots. -/
  slots : ∀ site : Place, site.slab < x.shared.pool.slabCount →
    site.offset < x.shared.pool.slabCapacity → (log.flatMap Act.grants).count site =
      (log.flatMap Act.releases).count site + if x.shared.pool.isFree site then 0 else 1
  total : x.shared.pool.freeSlots + (log.flatMap Act.grants).length =
    x.shared.pool.capacity + (log.flatMap Act.releases).length
  /-- A block is appended once, or is given back once, or is in the hands of a call. -/
  distinct : (log.flatMap Act.obtains).Nodup
  blocks : (log.flatMap Act.obtains).Perm (log.flatMap Act.appends ++ log.flatMap Act.discards ++
    x.underway.flatMap (·.stage.blocks))
  /-- The environment is what one piece of work has made of it: a block for every one obtained, room
  in the directory for every slab, and every block that was not needed given back. A counting layer
  of the pool alone has the entries for that and no others, if the memory grants all of it. -/
  memory : ∃ work, Supplied p env log x.shared x.underway work ∧ (Effect.KeepsMemory α →
    Effect.Granted work env → ∀ inner, env.resource = .counting {} inner →
      ∃ l inner', x.shared.env.resource = .counting l inner' ∧
        Billed log x.shared x.underway l)
  /-- The block of a new slab that is not needed goes back as the slab is torn down. -/
  surplus : ∀ v block found, (x.shared.discard v block found).2.2.env =
    let torn := (Slab.fresh x.shared.pool.slabCapacity : Slab α).teardown
      x.shared.pool.slabStorage x.shared.env
    if found.isSome then torn.2 else torn.2.raise (.poolExhausted x.shared.pool.codec.maxSlabs)
  /-- All slots that have been handed out are in blocks that were appended and not given back. -/
  homes : ∀ site ∈ log.flatMap Act.grants, ∃ block ∉ log.flatMap Act.discards,
    (log.flatMap Act.appends)[site.slab]? = some block
  /-- The values that have been returned are in their slots, each in one of its own. -/
  values : ∀ r ∈ x.shared.held, x.shared.pool.value? (x.shared.pool.place r.1) = some r.2
  places : (x.shared.held.map fun r => x.shared.pool.place r.1).Nodup
  /-- The counter has been raised at least as often as lowered, and it says by how much. -/
  counted : log.countP Act.lowers ≤ log.countP Act.raises
  live : x.shared.pool.live = UInt64.ofNat (log.countP Act.raises - log.countP Act.lowers)
  exact : x.underway.length ≤ 2 ^ 63 →
    x.shared.pool.live.toNat = log.countP Act.raises - log.countP Act.lowers
  /-- With no call under way it says how many values there are, besides those whose drop has ended
  in a fault. -/
  quiet : x.underway = [] →
    x.shared.pool.live.toNat = x.shared.held.length + log.countP Act.breaks
  /-- With no call under way a request is served as the operation serves it that it stands for. -/
  alone : x.underway = [] → ∀ w : Host α Unit, x.shared.pool = w.pool → x.shared.env = w.env →
    (∀ v, Runs x.shared (.construct v) (made (w.insert v).1) (w.insert v).2) ∧
    ∀ r ∈ x.shared.held,
      Runs x.shared (.destroy r.1) (ended ((w.remove r.1).1.map fun _ => none)) (w.remove r.1).2 ∧
      Runs x.shared (.take r.1) (ended (w.take r.1).1) (w.take r.1).2

/-- Whatever is done in a step, a call under way does it. -/
theorem Tracks.exists_shift {x : Crowd (Traffic α) (Call α)}
    (tracks : Tracks p log x.shared x.underway) {move : Move (Request α)} {act : Act α}
    (hStep : (rules.step x move).1 = some act) : ∃ before t after outcome,
      x.underway = before ++ t :: after ∧ move = .advance before.length ∧
        Shift x.shared t.stage outcome ∧ outcome.1 = act := by
  obtain hNone | ⟨_, _, _, -, -, hNone⟩ |
    ⟨before, t, after, act', rest, s', hCalls, hMove, hAdvance, hAct⟩ :=
      Rules.step_cases (R := rules) x move
  · rw [hNone] at hStep
    cases hStep
  · rw [hNone] at hStep
    cases hStep
  · obtain ⟨stage, hCall, -⟩ := advance_rules hAdvance
    rw [hAct, Option.some.injEq] at hStep
    rw [hCalls] at tracks
    exact ⟨before, t, after, _, hCalls, hMove, shift_of_advance tracks.fits.front hCall, hStep⟩

/-- A slab is appended when no slot is free, behind all others. -/
theorem Tracks.growth {x : Crowd (Traffic α) (Call α)} (tracks : Tracks p log x.shared x.underway)
    {move : Move (Request α)} {block : Nat} {site : Place}
    (hStep : (rules.step x move).1 = some (.appended block site)) :
    x.shared.pool.freeSlots = 0 ∧ site = ⟨x.shared.pool.slabCount, 0⟩ := by
  obtain ⟨_, _, _, _, -, -, shift, hAct⟩ := tracks.exists_shift hStep
  obtain ⟨-, hNot⟩ | ⟨_, hAppend, -, hFull, -⟩ := shift.slabCount_eq
  · rw [hAct] at hNot
    cases hNot
  · rw [hAct] at hAppend
    cases hAppend
    exact ⟨tracks.fits.housed.tidy.freeSlots_eq_zero hFull, rfl⟩

/-- Calls that run side by side at a pool share its slots and slabs, whatever the order of their
steps. -/
theorem run_allots {o : PoolOptions} (hCreate : Pool.create o = .ok p)
    (env : Environment) (moves : List (Move (Request α))) :
    Allots p env (rules.run (opening p env) moves).1 (rules.run (opening p env) moves).2 := by
  obtain ⟨tracks, work, supplied⟩ := run_supplied hCreate env moves
  generalize rules.run (opening p env) moves = done at tracks supplied ⊢
  obtain ⟨log, x⟩ := done
  have hRaises := tracks.raises_eq
  have hLive := tracks.toNat_live
  have hHeld := tracks.held_add_spent_le
  constructor
  case codec => exact tracks.codec
  case limit => exact tracks.codec ▸ tracks.fits.within
  case slabs => exact tracks.slabs.symm
  case growth => exact fun move block site => tracks.growth
  case apart => exact fun _ _ _ _ _ _ => release_between tracks.inOrder
  case slots => exact fun site => tracks.count_grants
  case total => exact tracks.freeSlots_add_grants
  case distinct => exact tracks.obtained ▸ List.nodup_range
  case blocks => exact tracks.obtained ▸ tracks.blocks
  case memory =>
    exact ⟨work, supplied, fun keeps granted inner hEnv =>
      supplied.billed tracks keeps hEnv granted⟩
  case surplus =>
    intro v block found
    rw [Slab.teardown_fresh x.shared.pool.slabCapacity_lt]
    cases found <;> rfl
  case homes => exact fun site => tracks.home
  case values => exact fun r => tracks.value?_eq
  case places => exact tracks.nodup_places
  case counted => omega
  case live => exact tracks.live
  case exact =>
    intro hFew
    have hEnds : x.underway.countP (·.stage.ends) ≤ x.underway.length := List.countP_le_length
    rw [hLive, Nat.mod_eq_of_lt (by dsimp only at *; omega)]
    omega
  case quiet =>
    intro hIdle
    rw [hLive, hIdle, ← tracks.spent, List.countP_nil, Nat.add_zero,
      Nat.mod_eq_of_lt (by dsimp only at *; omega)]
  case alone =>
    intro hIdle w hPool hEnv
    have fits : x.shared.Fits [] := hIdle ▸ tracks.fits
    exact ⟨fun v => runs_construct fits v hPool hEnv, fun r hMem =>
      ⟨runs_destroy fits hMem hPool hEnv, runs_take fits hMem hPool hEnv⟩⟩

/-- Two constructions both find that there is no slab and obtain a block. The second block becomes
the slab; the first construction finds a slot there and gives its block back. Then the values go,
one while the last construction still has to count its own. -/
def racing : List (Move (Request Tracked)) :=
  [.start (.construct ⟨1, false⟩), .start (.construct ⟨2, false⟩), .advance 0, .advance 1,
    .advance 0, .advance 1, .advance 1, .advance 0, .advance 1, .advance 1, .advance 0,
    .start (.destroy ⟨0⟩), .advance 1, .advance 1, .advance 0, .advance 1, .advance 0, .advance 0,
    .start (.take ⟨1⟩), .advance 0, .advance 0, .advance 0]

theorem run_allots_racing : ∃ log x,
    rules.run (opening (pair Tracked) untouched) racing = (log, x) ∧
    log =
      [.proceeded, .proceeded, .obtained 0, .obtained 1, .appended 1 ⟨0, 0⟩, .granted ⟨0, 1⟩,
        .proceeded, .constructed ⟨0⟩, .discarded 0, .proceeded, .proceeded, .proceeded,
        .released ⟨0, 0⟩, .constructed ⟨1⟩, .returned none, .proceeded, .released ⟨0, 1⟩,
        .returned (some ⟨1, false⟩)] ∧
    x.underway = [] ∧ x.shared.pool.slabCount = 1 ∧ x.shared.pool.live = 0 ∧
    (x.shared.env.ledger?.map fun l => (l.allocations, l.deallocations, l.liveBytes)) =
      some (3, 1, 128) ∧
      Allots (pair Tracked) untouched log x :=
  ⟨_, _, rfl, by decide +kernel, by decide +kernel, by decide +kernel, by decide +kernel,
    by decide +kernel, run_allots create_pair untouched racing⟩

end TaskMemory.Pool.Traffic

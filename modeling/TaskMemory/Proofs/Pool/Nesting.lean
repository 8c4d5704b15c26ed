import TaskMemory.Proofs.Pool.Abreast

/-!
Constructions whose value is built by a program that works on the same pool. The slot is claimed
first, and the value is put there when the program has ended; all comes to what the construction of
the value comes to with the program after it. If the code that builds the value breaks off, this is
so after the value has been taken out, but nothing has been written into the slot.
-/
namespace TaskMemory

variable {α : Type}

/-- What has been written into a slot beyond the first word. -/
def Pool.storage (p : Pool α) (site : Place) : Option α := (p.slot? site).bind Slot.value

namespace Slab

variable (s : Slab α) (i k : Nat)

/-- To claim a slot writes no value. -/
theorem value_unlink : s.unlink.slots[k]?.bind Slot.value = s.slots[k]?.bind Slot.value := by
  cases hHead : s.head with
  | none => rw [unlink_of_head_eq_none hHead]
  | some j =>
      rw [unlink_of_head hHead]
      change (s.update j Slot.claim).slots[k]?.bind _ = _
      rw [getElem?_update]
      split <;> cases s.slots[k]? <;> rfl

theorem value_link : (s.link i).slots[k]?.bind Slot.value = s.slots[k]?.bind Slot.value := by
  rcases hNeighbours : s.neighbours i with ⟨_ | j, after⟩
  · rw [getElem?_link_of_first hNeighbours]
    split <;> cases s.slots[k]? <;> rfl
  · rw [link_of_behind hNeighbours]
    change ((s.update i _).update j _).slots[k]?.bind _ = _
    rw [getElem?_update, getElem?_update]
    split <;> split <;> cases s.slots[k]? <;> rfl

theorem value_fresh (capacity : Nat) :
    (fresh capacity : Slab α).slots[k]?.bind Slot.value = none := by
  rw [fresh, Array.getElem?_ofFn]
  split <;> rfl

end Slab

namespace Pool

variable (p : Pool α) (site : Place)

theorem storage_mapSlab {change : Slab α → Slab α} (h : ∀ (slab : Slab α) (k : Nat),
      (change slab).slots[k]?.bind Slot.value = slab.slots[k]?.bind Slot.value) (i : Nat) :
    (p.mapSlab i change).storage site = p.storage site := by
  rw [storage, slot?, get?_mapSlab, storage, slot?]
  cases p.directory.get? site.slab with
  | none => split <;> rfl
  | some slab =>
      split
      · exact h slab site.offset
      · rfl

/-- A new slab leaves all other slots as they are. -/
theorem storage_append : p.append.storage site = p.storage site := by
  rw [storage, slot?, get?_append]
  split
  · next hLast =>
      have hNone : p.directory.get? site.slab = none :=
        Array.getElem?_eq_none (Nat.le_of_eq hLast.symm)
      rw [storage, slot?, hNone, Option.bind_some, Slab.value_unlink, Slab.value_fresh]
      rfl
  · rfl

variable {p site} [Stored α]

/-- The pool as the code finds it that builds a value: the slot has been claimed. -/
def Usage.claimed (w : Usage α) : Usage α := record Book.enter (Host.acquire Host.idle w).2.2

/-- The slot that the value with this handle is put into. -/
def Usage.lodging (h : Handle) (v : α) (w : Usage α) : Lodging α :=
  ⟨w.pool.place h, h, v, w.claimed.pool.slot? (w.pool.place h)⟩

variable {m₀ : Moment α} {env₀ : Environment} {claims : List Place} {closing : List (Holding α)}
  {w : Usage α} {v : α} {h : Handle}

/-- A slot is claimed without anything being written into it. -/
theorem Follows.storage_claimed (follows : Follows m₀ env₀ claims closing w) (fits₀ : m₀.Fits)
    (site : Place) : w.claimed.pool.storage site = w.pool.storage site := by
  have housed : w.pool.Housed (w.moment claims).seats := (follows.fits fits₀).housed
  rw [Usage.claimed]
  cases hVacancy : w.pool.vacancy? with
  | some found =>
      rw [Host.acquire_of_vacancy _ housed hVacancy]
      exact w.pool.storage_mapSlab site Slab.value_unlink found.slab
  | none =>
      cases hAt : w.pool.atLimit with
      | true => rw [Host.acquire_of_atLimit _ hVacancy hAt]; rfl
      | false =>
          rw [Host.acquire_of_room Host.idle hVacancy hAt rfl,
            extend_of_room hVacancy hAt]
          exact w.pool.storage_append site

/-- A construction claims the slot of a handle and does nothing else until its value is built. -/
structure Usage.Claims (w : Usage α) (h : Handle) (site : Place) (seen : Option Unit)
    (u : Usage α) : Prop where
  acquire : Host.acquire (fun w => ((), id w)) w = (.ok site, seen, u)
  state : u.state = w.state
  handle : u.pool.handle site = h
  place : w.pool.place h = site

/-- A claim enters the construction in the book. -/
theorem Usage.Claims.claimed_eq {site : Place} {seen : Option Unit} {u : Usage α}
    (claims : w.Claims h site seen u) : w.claimed = Usage.record Book.enter u :=
  congrArg (fun outcome : _ × _ × Usage α => record Book.enter outcome.2.2) claims.acquire

/-- A construction that succeeds has claimed the slot of its handle. -/
theorem Follows.exists_claim (follows : Follows m₀ env₀ claims closing w) (fits₀ : m₀.Fits)
    (hMade : (w.make v id id none).1.made = .ok h) :
    ∃ site seen u, w.Claims h site seen u ∧
      Follows m₀ env₀ (site :: claims) closing (Usage.record Book.enter u) := by
  have acquired := @Follows.acquire α _ m₀ env₀ claims closing w follows fits₀ id fun _ => id
  have hState : (Host.acquire (fun w => ((), id w)) w).2.2.state = w.state :=
    Host.acquire_state (P := (· = w.state)) (fun _ => id) rfl
  rcases hAcquire : Host.acquire (fun w => ((), id w)) w with ⟨refusal | site, seen, u⟩
  · obtain ⟨_, _, hRefused⟩ := Usage.make_of_refusal (v := v) hAcquire
    rw [hRefused] at hMade
    cases hMade
  · rw [hAcquire] at acquired hState
    rw [Usage.make_of_slot hAcquire] at hMade
    have hHandle : u.pool.handle site = h := Except.ok.inj hMade
    have entered : Follows m₀ env₀ (site :: claims) closing (Usage.record Book.enter u) := acquired
    have fits := entered.fits fits₀
    obtain ⟨offsetBits, slabBits, packs⟩ := fits.packs
    have hPlace : u.pool.place (u.pool.handle site) = site :=
      fits.housed.place_handle packs fits.within List.mem_cons_self
    have hSame : w.pool.place h = u.pool.place h := congrFun (follows.place_eq entered) h
    exact ⟨site, seen, u, ⟨hAcquire, hState, hHandle, by rw [hSame, ← hHandle, hPlace]⟩, entered⟩

/-- A construction has come to what the construction of the value comes to with the program after
it. -/
structure Lodging.Succeeds (x : Lodging α) (nested : Construction Unit Unit × Usage α)
    (apart : Usage α) : Prop where
  made : nested.1.made = .ok x.handle
  pool : nested.2.pool = apart.pool
  entries : nested.2.state.book.entries.Perm apart.state.book.entries
  farewells : nested.2.state.book.farewells.map Farewell.unnumbered =
    apart.state.book.farewells.map Farewell.unnumbered
  replies : nested.2.state.replies = apart.state.replies
  views : List.Forall₂ (Beside x) nested.2.state.views apart.state.views

/-- A construction whose code has broken off when its program had ended has come to what the
construction of the value comes to with the program after it and then the removal of the value. What
tells the pools apart is the storage of the slot, into which nothing has been written; and nothing
is dropped but the value with which the code has broken off. -/
structure Lodging.Fails (x : Lodging α) (fault : Fault) (ended : Usage α)
    (nested : Construction Unit Unit × Usage α) (apart taken : Usage α) : Prop where
  made : nested.1.made = .error (.fault fault)
  pool : taken.pool = nested.2.pool.update x.site fun slot => { slot with value := some x.value }
  storage : nested.2.pool.storage x.site = x.slot.bind Slot.value
  entries : taken.state.book.entries.Perm nested.2.state.book.entries
  farewells : nested.2.state.book.farewells.map Farewell.unnumbered =
    apart.state.book.farewells.map Farewell.unnumbered ++ [.refused x.value]
  env : nested.2.env = (Stored.drop true x.value ended.env).2.2
  replies : taken.state.replies =
    nested.2.state.replies ++ [⟨x.handle, x.value, .ok (some x.value)⟩]
  views : List.Forall₂ (Beside x) nested.2.state.views apart.state.views

section Outcomes

variable {site : Place} {seen : Option Unit} {u apart : Usage α} {next : Program α}

/-- To construct first and then to run code is abreast of running it in between. -/
theorem Usage.Claims.abreast (claim : w.Claims h site seen u) (hViews : w.state.views = []) :
    Abreast (w.lodging h v) (record Book.enter u) (w.make v id id none).2 := by
  rw [make_of_slot claim.acquire]
  have hEntries : ((record Book.enter u).state.book.leave.lodge (u.pool.handle site) v).entries.Perm
      ((h, v) :: (record Book.enter u).state.book.entries) :=
    claim.handle ▸ Book.entries_lodge _ _ v
  have hNone : u.state.views = [] := claim.state ▸ hViews
  refine ⟨⟨⟨?_, ?_⟩, hEntries, rfl⟩, ?_, rfl⟩
  · rw [lodging, claim.place]
    rfl
  · rw [lodging, claim.claimed_eq]
    rfl
  · change List.Forall₂ _ u.state.views u.state.views
    rw [hNone]
    exact .nil

variable (claim : w.Claims h site seen u)
  (abreast : Abreast (w.lodging h v) (next.run (Usage.record Book.enter u)) apart)
  (entered : Follows m₀ env₀ (site :: claims) closing (Usage.record Book.enter u))
  (fits₀ : m₀.Fits)

include claim abreast entered fits₀

/-- What a nested construction leads to if its constructor returns. -/
theorem Usage.Claims.succeeds :
    (w.lodging h v).Succeeds (w.make v id next.run none) apart := by
  have hCodec : (next.run (record Book.enter u)).pool.codec = u.pool.codec :=
    (next.follows fits₀ entered).codec_eq.trans entered.codec_eq.symm
  have hHandle : (next.run (record Book.enter u)).pool.handle site = h := by
    rw [← claim.handle, Pool.handle, hCodec]
    rfl
  have hSite : (w.lodging h v).site = site := claim.place
  have hPool := abreast.now.pool.eq
  rw [hSite] at hPool
  rw [make_of_slot claim.acquire, hHandle]
  refine ⟨rfl, hPool.symm, ?_, abreast.now.book.farewells.symm, abreast.replies.symm, abreast.views⟩
  exact (Book.entries_lodge _ h v).trans abreast.now.book.entries.symm

/-- What a nested construction leads to if its constructor fails. -/
theorem Usage.Claims.fails (follows : Follows m₀ env₀ claims closing apart)
    (before : Follows m₀ env₀ claims closing w) (fault : Fault) :
    (w.lodging h v).Fails fault (next.run (record Book.enter u)) (w.make v id next.run (some fault))
      apart (apart.through h Usage.take) := by
  obtain ⟨r, hMem, hEntry⟩ := List.mem_map.mp
    (abreast.now.book.entries.mem_iff.mpr List.mem_cons_self)
  obtain ⟨hHandle, hValue⟩ : r.handle = h ∧ r.value = v := Prod.mk.inj hEntry
  have hFind : apart.state.book.find? r.handle = some r := (follows.fits fits₀).find?_eq hMem
  have hTake : apart.through h take = apart.take r := by
    simp only [through, ← hHandle, hFind]
  have hGiven := (follows.fits fits₀).take_eq hMem
  have hSite : (w.lodging h v).site = site := claim.place
  have hPlace : apart.pool.place r.handle = site := by
    rw [← before.place_eq follows, hHandle, claim.place]
  have nested := next.follows fits₀ entered
  have hClaimed : ∀ slot, (next.run (record Book.enter u)).pool.slot? site = some slot →
      slot.live = false := by
    intro slot hSlot
    obtain ⟨slot', hSlot', hFlags⟩ := (nested.fits fits₀).housed.fits ⟨site, .claim⟩
      List.mem_cons_self
    obtain rfl := Option.some.inj (hSlot'.symm.trans hSlot)
    exact congrArg Prod.snd hFlags
  have hPool := (nested.tidy fits₀).take_publish v (Or.inl List.mem_cons_self) hClaimed
  have hApart : apart.pool = (next.run (record Book.enter u)).pool.publish site v :=
    hSite ▸ abreast.now.pool.eq
  have hStorage := storage_mapSlab (next.run (record Book.enter u)).pool site
    (fun slab => slab.value_link site.offset) site.slab
  have hKept := congrArg (·.bind Slot.value) abreast.now.pool.slot
  have hEntries := abreast.now.book.entries.symm.trans (Book.entries_handOut hFind)
  rw [hSite] at hKept
  rw [hEntry] at hEntries
  rw [make_of_fault claim.acquire, hTake]
  simp only [take, hGiven, hPlace]
  constructor
  case made => rfl
  case pool =>
    rw [hSite]
    exact (congrArg (fun q : Pool α => (q.recycled site).update site Slot.retire)
      hApart).trans hPool
  case storage =>
    rw [hSite]
    exact hStorage.trans hKept
  case entries => exact hEntries.cons_inv.symm
  case farewells =>
    have hFarewells := abreast.now.book.farewells
    change (_ ++ [Farewell.refused v]).map Farewell.unnumbered = _
    rw [List.map_append]
    exact congrArg (· ++ [Farewell.refused v]) hFarewells.symm
  case env => rfl
  case replies =>
    have hReply : (⟨r.handle, r.value, .ok (some r.value)⟩ : Reply α) = ⟨h, v, .ok (some v)⟩ := by
      rw [hHandle, hValue]
    change apart.state.replies ++ [(⟨r.handle, r.value, .ok (some r.value)⟩ : Reply α)] = _
    rw [hReply, abreast.replies]
    rfl
  case views => exact abreast.views

end Outcomes

/-- A construction whose value a program builds comes to what the construction comes to with the
program after it. -/
theorem Program.nested_construct {o : PoolOptions} {p : Pool α} (h : Pool.create o = .ok p)
    (env : Environment) (program next : Program α) (v : α) (failure : Option Fault) :
    ∀ view ∈ (program.run (Usage.start p env)).state.views, ∀ w, Usage.resume view = w →
      (w.pool.vacancy? = none → w.pool.atLimit = true →
        (w.make v id next.run failure).1.building = none ∧
        w.make v id next.run failure = w.make v id id none) ∧
      ∀ handle, (w.make v id id none).1.made = .ok handle → next.Avoids handle →
      ∀ nested apart, w.make v id next.run failure = nested →
        next.run (w.make v id id none).2 = apart →
        nested.2.spoiled = w.spoiled → apart.spoiled = w.spoiled →
        nested.1.building = some () ∧ w.claimed.pool.storage (w.pool.place handle) =
          w.pool.storage (w.pool.place handle) ∧
        match failure with
        | none => (w.lodging handle v).Succeeds nested apart
        | some fault => (w.lodging handle v).Fails fault (next.run w.claimed) nested apart
            (apart.through handle Usage.take) := by
  rintro view hView w rfl
  have fits₀ := Moment.fits_initial h
  obtain ⟨claims, reached⟩ := (program.follows_initial h env).views view hView
  have before := reached.resumed
  constructor
  · intro hFull hLimit
    have hAcquire := Host.acquire_of_atLimit (fun w => ((), id w)) hFull hLimit
    obtain ⟨_, _, hRefused⟩ := Usage.make_of_refusal (v := v) hAcquire
    simp only [hRefused, and_self]
  · rintro handle hMade avoids nested apart rfl rfl hQuiet hQuiet'
    obtain ⟨site, seen, u, claim, entered⟩ := before.exists_claim fits₀ hMade
    have constructed : Follows (Moment.initial p) env claims view.state.closing
        ((Usage.resume view).make v id id none).2 := by
      rw [Usage.snd_make]
      exact before.construct fits₀ v none (fun _ => id) fun _ _ => id
    have hSite : ((Usage.resume view).lodging handle v).site ∈ site :: claims :=
      claim.place ▸ List.mem_cons_self
    have hSame : (Usage.record Book.enter u).spoiled = (Usage.resume view).spoiled :=
      congrArg (·.book.spent.length) claim.state
    have hSame' : ((Usage.resume view).make v id id none).2.spoiled =
        (Usage.resume view).spoiled := by
      rw [Usage.snd_make, Usage.spoiled_of_slot claim.acquire]
      exact hSame
    have hNested : (next.run (Usage.record Book.enter u)).spoiled =
        (Usage.resume view).spoiled := by
      rw [← hQuiet, Usage.snd_make, Usage.spoiled_of_slot claim.acquire]
    have abreast := next.abreast fits₀ entered hSite constructed (claim.abreast rfl) avoids
      (hNested.trans hSame.symm).le (hQuiet'.trans hSame'.symm).le
    have after := next.follows fits₀ constructed
    refine ⟨?_, before.storage_claimed fits₀ _, ?_⟩
    · cases failure with
      | none => rw [Usage.make_of_slot claim.acquire]
      | some fault => rw [Usage.make_of_fault claim.acquire]
    · cases failure with
      | none => exact claim.succeeds abreast entered fits₀
      | some fault =>
          rw [claim.claimed_eq]
          exact claim.fails abreast entered fits₀ after before fault

def couple : Pool Tracked := { codec := ⟨1, 2, 1, 2⟩, limit := .bounded 2 }

theorem create_couple : Pool.create { slabCapacity := 2, limit := .bounded 2 } = .ok couple := rfl

/-- Four values fill the pool; the drop of the first one would end in a fault. -/
def Program.filling : Program Tracked :=
  .construct ⟨1, true⟩ .done .done none <| .construct ⟨2, false⟩ .done .done none <|
  .construct ⟨3, false⟩ .done .done none <| .construct ⟨4, false⟩ .done .done none .done

/-- The first value is taken, and two values are put into the pool, for the second of which it
grows if its second slot is taken. -/
def Program.busy : Program Tracked :=
  .take ⟨0⟩ <|
  .construct ⟨5, false⟩ .done .done none <|
  .construct ⟨6, false⟩ .done .done none .done

/-- A value is built by that program after the first value has been put into the pool, with and
without success, and once more in the full pool. -/
theorem Program.nested_construct_busy :
    (∃ view ∈ (filling.run (Usage.start couple untouched)).state.views,
      (Usage.make ⟨7, false⟩ id busy.run none (Usage.resume view)).1.building = none) ∧
    ∃ view ∈ (filling.run (Usage.start couple untouched)).state.views, ∃ w, Usage.resume view = w ∧
      (w.lodging ⟨1⟩ ⟨7, false⟩).Succeeds (w.make ⟨7, false⟩ id busy.run none)
        (busy.run (w.make ⟨7, false⟩ id id none).2) ∧
      (w.lodging ⟨1⟩ ⟨7, false⟩).Fails .wordless (busy.run w.claimed)
        (w.make ⟨7, false⟩ id busy.run (some .wordless))
        (busy.run (w.make ⟨7, false⟩ id id none).2)
        ((busy.run (w.make ⟨7, false⟩ id id none).2).through ⟨1⟩ Usage.take) := by
  have hAvoids : busy.Avoids ⟨1⟩ := ⟨by decide, ⟨trivial, trivial, trivial, trivial, trivial⟩⟩
  have first := List.getElem_mem (l := (filling.run (Usage.start couple untouched)).state.views)
    (n := 3) (by decide +kernel)
  have last := List.getElem_mem (l := (filling.run (Usage.start couple untouched)).state.views)
    (n := 10) (by decide +kernel)
  refine ⟨⟨_, last, ?_⟩, _, first, _, rfl, ?_, ?_⟩
  · obtain ⟨hNone, -⟩ := Program.nested_construct create_couple untouched filling busy ⟨7, false⟩
      none _ last _ rfl
    exact (hNone (by decide +kernel) (by decide +kernel)).1
  · obtain ⟨-, hSome⟩ := Program.nested_construct create_couple untouched filling busy ⟨7, false⟩
      none _ first _ rfl
    exact (hSome ⟨1⟩ (by decide +kernel) hAvoids _ _ rfl rfl (by decide +kernel)
      (by decide +kernel)).2.2
  · obtain ⟨-, hSome⟩ := Program.nested_construct create_couple untouched filling busy ⟨7, false⟩
      (some .wordless) _ first _ rfl
    exact (hSome ⟨1⟩ (by decide +kernel) hAvoids _ _ rfl rfl (by decide +kernel)
      (by decide +kernel)).2.2

end Pool

end TaskMemory

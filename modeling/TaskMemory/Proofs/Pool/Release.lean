import Mathlib.Data.List.Sort
import TaskMemory.Proofs.Pool.Simulation

/-!
Slots that are given back. A slab walks along its free list up to the place where the slot belongs.
Since the list is sorted, the walk also finds out whether the slot is on the list already, before
anything is written: then the release is refused and nothing changes. Otherwise the slot is put in
its place.
-/
namespace TaskMemory

/-- Dropping a value does nothing, and no user code can run there. -/
structure Stored.Inert (α : Type) [Stored α] : Prop where
  runsCode : Stored.runsCode α = false
  beginDrop : ∀ (v : α) env, Stored.beginDrop v env = env
  endDrop : ∀ unwinding (v : α) env, Stored.endDrop unwinding v env = (none, v, env)

theorem Stored.inert_uint8 : Stored.Inert UInt8 := ⟨rfl, fun _ _ => rfl, fun _ _ _ => rfl⟩

namespace Slab

variable {α : Type} {s : Slab α} {taken : Nat → Prop} {chain : List Nat}

/-- How a slab takes slots back, when this is its free list. -/
structure Readmits (s : Slab α) (chain : List Nat) : Prop where
  threads : s.Threads s.head chain none
  ascending : chain.Pairwise (· < ·)
  count : chain.length = s.freeCount
  /-- The walk ends at the end of the list or at the first slot that is not below the one that is
  given back. It takes no more steps than the list is long: with more of them it ends there too. -/
  walk : ∀ i, (∀ j ∈ (s.neighbours i).2, i ≤ j) ∧
    ∀ steps, s.freeCount ≤ steps → s.seek i steps none s.head = s.neighbours i
  refused : ∀ i ∈ chain, s.isFree i = true
  accepted : ∀ i < s.slots.size, i ∉ chain → s.isFree i = false ∧
    (s.link i).Threads (s.link i).head (chain.orderedInsert (· ≤ ·) i) none ∧
    (s.link i).freeCount = s.freeCount + 1

/-- A slab takes any slot back that is not free. -/
theorem Listed.readmits (listed : s.Listed taken chain) (hRoom : s.slots.size < 2 ^ 32) :
    s.Readmits chain where
  threads := listed.threads
  ascending := listed.ascending
  count := listed.count.symm
  walk i := by
    constructor
    · intro j hj
      rw [listed.neighbours_eq] at hj
      exact ((mem_dropWhile_iff listed.ascending).mp (List.mem_of_mem_head? hj)).2
    · intro steps hSteps
      rw [listed.count] at hSteps
      rw [seek_eq listed.threads hSteps, listed.neighbours_eq, Option.or_none]
  refused i := (listed.isFree_iff i).mpr
  accepted i hi hFree := by
    have hTaken : taken i := by
      by_contra hNot
      exact hFree ((listed.mem_iff i).mpr ⟨hi, hNot⟩)
    have linked := listed.link hTaken hi hRoom
    have hPlace : chain.orderedInsert (· ≤ ·) i =
        chain.takeWhile (· < i) ++ i :: chain.dropWhile (· < i) := by
      simp [List.orderedInsert_eq_take_drop]
    rw [← hPlace] at linked
    refine ⟨?_, linked.threads, ?_⟩
    · rw [← Bool.not_eq_true, listed.isFree_iff]
      exact hFree
    · rw [linked.count, List.orderedInsert_length, listed.count]

end Slab

section Items

variable {β : Type} {items : Array β} {i : Nat} {f : β → β}

theorem modify_eq_self (h : ∀ item, items[i]? = some item → f item = item) :
    items.modify i f = items := by
  apply Array.ext_getElem?
  intro n
  rw [Array.getElem?_modify]
  split
  · next hEq =>
      subst hEq
      cases hGet : items[i]? with
      | none => rfl
      | some item => exact congrArg some (h item hGet)
  · rfl

end Items

namespace Pool

variable {α σ : Type} {site : Place} {k : Nat} {slab : Slab α}

/-- A change that does nothing to the slot does nothing. -/
theorem update_eq_self {p : Pool α} {change : Slot α → Slot α}
    (h : ∀ slot, p.slot? site = some slot → change slot = slot) : p.update site change = p := by
  have hSlab : ∀ slab, p.directory.items[site.slab]? = some slab →
      slab.update site.offset change = slab := by
    intro slab hGet
    have hSlots : slab.slots.modify site.offset change = slab.slots := by
      apply modify_eq_self
      intro slot hSlot
      exact h slot (Option.bind_eq_some_iff.mpr ⟨slab, hGet, hSlot⟩)
    rw [Slab.update, hSlots]
  rw [Pool.update, mapSlab, Table.modify, modify_eq_self hSlab]

/-- A slot that is free is not taken back again. -/
theorem recycle_of_isFree {p : Pool α} (h : p.isFree site = true) :
    p.recycle site = .error (.releasedTwice site.offset) := by
  rw [recycle, if_pos h]

theorem recycle_of_not_isFree {p : Pool α} (h : p.isFree site = false) :
    p.recycle site = .ok (p.recycled site) := by
  simp [recycle, recycled, h]

variable [Stored α] {m : Moment α} {b : Book α} {claims : List Place} {w : Host α σ}

/-- The list of a slab has the slots that have no tenants. -/
theorem Moment.Fits.exists_readmits (fits : m.Fits) (hGet : m.pool.directory.get? k = some slab) :
    ∃ chain, slab.Readmits chain ∧ slab.slots.size = m.pool.slabCapacity ∧
      ∀ i ∈ chain, (⟨k, i⟩ : Place) ∉ Seat.sites m.seats := by
  obtain ⟨chain, listed⟩ := fits.housed.tidy.listed k slab hGet
  have hSize := fits.housed.tidy.size k slab hGet
  exact ⟨chain, listed.readmits (hSize ▸ slabCapacity_lt m.pool), hSize,
    fun i hi => ((listed.mem_iff i).mp hi).2⟩

/-- A destruction through a handle whose slot is free ends in a fault, and all is as it was. -/
theorem Moment.Fits.destroy_of_isFree (fits : (⟨w.pool, b, claims⟩ : Moment α).Fits)
    (inert : Stored.Inert α) {h : Handle} (hSlab : w.pool.hasSlab h = true)
    (hVacant : w.pool.place h ∉ Seat.sites (⟨w.pool, b, claims⟩ : Moment α).seats)
    (hFree : w.pool.isFree (w.pool.place h) = true) {β : Type}
    (dropping : Host α σ → β × Host α σ) :
    w.destroy h dropping = (.error (.releasedTwice (w.pool.place h).offset), none, w) := by
  have hRecycle := recycle_of_isFree hFree
  have hRetire : w.pool.update (w.pool.place h) Slot.retire = w.pool := by
    apply update_eq_self
    intro slot hSlot
    have hFlags := fits.housed.idle _ slot hSlot hVacant
    cases slot
    exact congrArg _ (congrArg Prod.snd hFlags).symm
  rw [Host.destroy, if_pos hSlab]
  dsimp only
  cases (w.pool.slot? (w.pool.place h)).bind Slot.read? with
  | none => simp only [Host.recycle, hRecycle]
  | some v =>
      simp only [inert.runsCode, inert.beginDrop, inert.endDrop, Bool.false_eq_true, ↓reduceIte,
        Host.recycle, hRetire, hRecycle]

/-- Whatever has run, in whatever nesting: a slab puts a slot that is off its free list in its
sorted place there. A slot that is on the list is not put there again: if the drop of a value does
nothing, a destruction through any handle of such a slot ends in a fault and changes nothing. -/
theorem Program.second_release {o : PoolOptions} {p : Pool α} (h : Pool.create o = .ok p)
    (env : Environment) (program : Program α) :
    ∀ view ∈ (program.run (Usage.start p env)).state.views, ∀ k slab,
      view.pool.directory.get? k = some slab → ∃ chain, slab.Readmits chain ∧
        slab.slots.size = view.pool.slabCapacity ∧
        (∀ i < view.pool.slabCapacity, i ∉ chain →
          view.pool.recycle ⟨k, i⟩ = .ok (view.pool.recycled ⟨k, i⟩)) ∧
        (Stored.Inert α → ∀ handle : Handle, (view.pool.place handle).slab = k →
          (view.pool.place handle).offset ∈ chain →
          ∀ {β : Type} (dropping : Host α (Book α) → β × Host α (Book α)),
            view.destroy handle dropping =
              (.error (.releasedTwice (view.pool.place handle).offset), none, view)) := by
  intro view hView k slab hGet
  obtain ⟨claims, es, steps, _⟩ := (program.follows_initial h env).views view hView
  have fits : (⟨view.pool, view.state, claims⟩ : Moment α).Fits :=
    steps.fits (Moment.fits_initial h)
  obtain ⟨chain, readmits, hSize, hVacant⟩ := fits.exists_readmits hGet
  have hIsFree : ∀ i, view.pool.isFree ⟨k, i⟩ = slab.isFree i := fun i => by
    rw [isFree, hGet, Option.any_some]
  refine ⟨chain, readmits, hSize, fun i hi hOff => ?_, ?_⟩
  · apply recycle_of_not_isFree
    rw [hIsFree]
    exact (readmits.accepted i (hSize ▸ hi) hOff).1
  · rintro inert handle rfl hOn β dropping
    have hSlab : view.pool.hasSlab handle = true := decide_eq_true (get?_lt hGet)
    exact fits.destroy_of_isFree inert hSlab (hVacant _ hOn)
      ((hIsFree _).trans (readmits.refused _ hOn)) dropping

/-- A value is put into the pool and destroyed. -/
def Program.brief : Program UInt8 :=
  .construct 5 .done .done none (.destroy ⟨0⟩ .done .done)

/-- After that both slots of the slab are free: the slot of the value is the first one on the list,
and the other one the last. Neither can be given back. -/
theorem Program.second_release_brief :
    ∃ view ∈ (brief.run (Usage.start (pair UInt8) untouched)).state.views,
    view.pool.slabCount = 1 ∧ view.pool.freeSlots = 2 ∧
    view.destroy ⟨0⟩ Host.idle = (.error (.releasedTwice 0), none, view) ∧
    view.destroy ⟨1⟩ Host.idle = (.error (.releasedTwice 1), none, view) := by
  let w := brief.run (Usage.start (pair UInt8) untouched)
  have hView : (⟨w.pool, w.env, w.state.book⟩ : Host UInt8 (Book UInt8)) ∈ w.state.views :=
    List.mem_append_right _ List.mem_cons_self
  have hLinks : (w.pool.directory.get? 0).map (fun slab =>
      (slab.head, slab.nextFree 0, slab.nextFree 1)) = some (some 0, some 1, none) := by
    decide +kernel
  obtain ⟨slab, hGet, hLinks⟩ := Option.map_eq_some_iff.mp hLinks
  simp only [Prod.mk.injEq] at hLinks
  obtain ⟨chain, readmits, -, -, refuses⟩ :=
    Program.second_release create_pair untouched brief _ hView 0 slab hGet
  obtain rfl : chain = [0, 1] :=
    readmits.threads.unique ⟨hLinks.1, hLinks.2.1, hLinks.2.2⟩
  have hFirst : w.pool.place ⟨0⟩ = ⟨0, 0⟩ := by decide +kernel
  have hLast : w.pool.place ⟨1⟩ = ⟨0, 1⟩ := by decide +kernel
  have first := refuses Stored.inert_uint8 ⟨0⟩ (by simp [hFirst]) (by simp [hFirst]) Host.idle
  have last := refuses Stored.inert_uint8 ⟨1⟩ (by simp [hLast]) (by simp [hLast]) Host.idle
  simp only [hFirst] at first
  simp only [hLast] at last
  exact ⟨_, hView, by decide +kernel, by decide +kernel, first, last⟩

end Pool
end TaskMemory

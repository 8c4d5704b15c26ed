import TaskMemory.Proofs.Pool.Invariant

/-!
What the end of a pool does. The walk beside the slots of a slab drops the values that stand in it,
in the order of their offsets, because the free list is sorted as well: the walk meets a slot that
is not free exactly where the list has a gap. So a pool drops the values of its slabs in the order
of their places, and gives every slab back after its values.
-/
namespace TaskMemory

variable {α : Type} [Stored α]

namespace Slab

variable {s : Slab α} {i : Nat} {free : List Nat} {held : List (Nat × α)} {v : α}

/-- From slot `i` on, the slots of a slab are free or hold these values, at these offsets. -/
structure Split (s : Slab α) (i : Nat) (free : List Nat) (held : List (Nat × α)) : Prop where
  free_ascending : free.Pairwise (· < ·)
  held_ascending : (held.map Prod.fst).Pairwise (· < ·)
  free_from : ∀ j ∈ free, i ≤ j
  free_lt : ∀ j ∈ free, j < s.slots.size
  held_from : ∀ j ∈ held.map Prod.fst, i ≤ j
  apart : ∀ j ∈ held.map Prod.fst, j ∉ free
  cover : ∀ j, i ≤ j → j < s.slots.size → j ∈ free ∨ j ∈ held.map Prod.fst
  reads : ∀ h ∈ held, s.slots[h.1]?.bind Slot.read? = some h.2

/-- A value that stands in front of all others is the first one. -/
theorem eq_cons_of_mem {js : List Nat} (ascending : js.Pairwise (· < ·)) (hFrom : ∀ j ∈ js, i ≤ j)
    (h : i ∈ js) : ∃ rest, js = i :: rest := by
  cases js with
  | nil => cases h
  | cons j rest =>
      rcases List.mem_cons.mp h with rfl | hRest
      · exact ⟨rest, rfl⟩
      · have hLt := (List.pairwise_cons.mp ascending).1 i hRest
        have hLe := hFrom j List.mem_cons_self
        omega

/-- Behind a free slot the list goes on with the next one. -/
theorem Split.of_free (split : s.Split i (i :: free) held) : s.Split (i + 1) free held := by
  have hFree := List.pairwise_cons.mp split.free_ascending
  have hHeld : ∀ j ∈ held.map Prod.fst, i + 1 ≤ j := by
    intro j hj
    have hNe : j ≠ i := by
      rintro rfl
      exact split.apart j hj List.mem_cons_self
    have hLe := split.held_from j hj
    omega
  refine ⟨hFree.2, split.held_ascending, hFree.1, ?_, hHeld, ?_, ?_, split.reads⟩
  · exact fun j hMem => split.free_lt j (List.mem_cons_of_mem _ hMem)
  · exact fun j hj hMem => split.apart j hj (List.mem_cons_of_mem _ hMem)
  · intro j hLe hLt
    rcases split.cover j (by omega) hLt with hMem | hMem
    · rcases List.mem_cons.mp hMem with rfl | hMem
      · omega
      · exact Or.inl hMem
    · exact Or.inr hMem

/-- Behind a value the list stays where it is. -/
theorem Split.of_held (split : s.Split i free ((i, v) :: held)) : s.Split (i + 1) free held := by
  have hHeld := List.pairwise_cons.mp split.held_ascending
  have hFree : ∀ j ∈ free, i + 1 ≤ j := by
    intro j hj
    have hNe : j ≠ i := by
      rintro rfl
      exact split.apart j List.mem_cons_self hj
    have hLe := split.free_from j hj
    omega
  refine ⟨split.free_ascending, hHeld.2, hFree, split.free_lt, hHeld.1, ?_, ?_, ?_⟩
  · exact fun j hj => split.apart j (List.mem_cons_of_mem _ hj)
  · intro j hLe hLt
    rcases split.cover j (by omega) hLt with hMem | hMem
    · exact Or.inl hMem
    · rcases List.mem_cons.mp hMem with rfl | hMem
      · exact absurd hLe (Nat.not_succ_le_self _)
      · exact Or.inr hMem
  · exact fun h hMem => split.reads h (List.mem_cons_of_mem _ hMem)

/-- No slot is free behind the last one. -/
theorem Split.free_eq_nil (split : s.Split i free held) (hEnd : s.slots.size ≤ i) : free = [] :=
  List.eq_nil_iff_forall_not_mem.mpr fun j hMem => by
    have hFrom := split.free_from j hMem
    have hLt := split.free_lt j hMem
    omega

/-- The walk beside the slots drops the values that stand there, and it comes across every free
slot. By induction on the slots that are left: the next slot is the next free one, or it holds the
next value. -/
theorem dropValues_eq {slots : List (Slot α)} (hSlots : slots = s.slots.toList.drop i)
    {next : Option Nat} (hThreads : s.Threads next free none) (split : s.Split i free held)
    (env : Environment) :
    dropValues slots i next env = Effect.perform (Effect.drops (held.map Prod.snd)) env := by
  induction slots generalizing i next free held env with
  | nil =>
      have hEnd : s.slots.size ≤ i := by simpa using hSlots.symm
      obtain rfl := split.free_eq_nil hEnd
      obtain rfl : next = none := hThreads
      cases held with
      | nil => rfl
      | cons h held =>
          have hLe := split.held_from h.1 List.mem_cons_self
          have hRead := split.reads h List.mem_cons_self
          rw [Array.getElem?_eq_none (by omega)] at hRead
          cases hRead
  | cons slot rest ih =>
      have hLt : i < s.slots.size := by
        by_contra hGe
        rw [List.drop_of_length_le (by simpa using hGe)] at hSlots
        cases hSlots
      have hDrop := List.drop_eq_getElem_cons (by simpa using hLt : i < s.slots.toList.length)
      rw [← hSlots, List.cons.injEq, Array.getElem_toList] at hDrop
      have hSlot : s.slots[i]? = some slot := by rw [hDrop.1, Array.getElem?_eq_getElem]
      by_cases hMem : i ∈ free
      · obtain ⟨free, rfl⟩ := eq_cons_of_mem split.free_ascending split.free_from hMem
        obtain ⟨rfl, hRest⟩ := hThreads
        have hNext : s.nextFree i = slot.next := by rw [nextFree, hSlot, Option.bind_some]
        rw [hNext] at hRest
        rw [dropValues, if_pos rfl]
        exact ih hDrop.2 hRest split.of_free env
      · have hHeld := (split.cover i (Nat.le_refl i) hLt).resolve_left hMem
        obtain ⟨rests, hCons⟩ := eq_cons_of_mem split.held_ascending split.held_from hHeld
        obtain ⟨⟨j, v⟩, held, rfl⟩ : ∃ h rest, held = h :: rest := by
          cases held with
          | nil => cases hCons
          | cons h rest => exact ⟨h, rest, rfl⟩
        obtain rfl : j = i := (List.cons.inj hCons).1
        have hNext : next ≠ some j := by
          rw [hThreads.start_eq]
          exact fun hHead => hMem (List.mem_of_mem_head? hHead)
        have hRead : slot.read? = some v := by
          have hReads := split.reads (j, v) List.mem_cons_self
          rwa [hSlot] at hReads
        rw [dropValues, if_neg hNext]
        simp only [hRead, List.map_cons, Effect.drops, List.flatMap_cons]
        rw [Effect.perform_append, Effect.perform_drop]
        rcases Stored.drop false v env with ⟨_ | fault, left, env'⟩
        · exact ih hDrop.2 hThreads split.of_held env'
        · rfl

/-- A slab drops its values and gives its block back, unless a fault intervenes. -/
theorem teardown_eq (hThreads : s.Threads s.head free none) (split : s.Split 0 free held)
    (storage : Layout) (env : Environment) : s.teardown storage env =
      Effect.perform (Effect.drops (held.map Prod.snd) ++ [.giveBack storage]) env := by
  rw [teardown, dropValues_eq List.drop_zero.symm hThreads split, Effect.perform_append]
  rcases Effect.perform (Effect.drops (held.map Prod.snd)) env with ⟨_ | fault, env'⟩
  · rfl
  · rfl

/-- The teardown of a slab that was never used drops nothing. -/
theorem teardown_fresh {capacity : Nat} (hRoom : capacity < 2 ^ 32) (storage : Layout)
    (env : Environment) :
    (fresh capacity : Slab α).teardown storage env = (none, env.release storage) := by
  have listed : (fresh capacity : Slab α).Listed (fun _ => False) (List.range capacity) :=
    listed_fresh hRoom
  have split : (fresh capacity : Slab α).Split 0 (List.range capacity) [] := by
    constructor
    case free_ascending => exact listed.ascending
    case held_ascending => exact .nil
    case free_from => exact fun j _ => Nat.zero_le j
    case free_lt => exact fun j => listed.lt_size
    case held_from => exact nofun
    case apart => exact nofun
    case cover => exact fun j _ hLt => .inl ((listed.mem_iff j).mpr ⟨hLt, not_false⟩)
    case reads => exact nofun
  rw [teardown_eq listed.threads split]
  rfl

end Slab

/-- Slabs come in their order, and slots within a slab. -/
def Place.Before (a b : Place) : Prop := a.slab < b.slab ∨ a.slab = b.slab ∧ a.offset < b.offset

/-- Whether a place is another one or comes before it. -/
def Place.notAfter (a b : Place) : Bool :=
  a.slab < b.slab || a.slab = b.slab && a.offset ≤ b.offset

/-- A place is not after another one if it is the same or before it. -/
theorem Place.notAfter_iff {a b : Place} : a.notAfter b = true ↔ a = b ∨ a.Before b := by
  obtain ⟨slab, offset⟩ := a
  obtain ⟨slab', offset'⟩ := b
  simp only [notAfter, Before, mk.injEq, Bool.or_eq_true, Bool.and_eq_true, decide_eq_true_eq]
  omega

theorem Place.notAfter_trans {a b c : Place} (h : a.notAfter b) (h' : b.notAfter c) :
    a.notAfter c := by
  simp only [notAfter, Bool.or_eq_true, Bool.and_eq_true, decide_eq_true_eq] at h h' ⊢
  omega

theorem Place.notAfter_total (a b : Place) : a.notAfter b || b.notAfter a := by
  simp only [notAfter, Bool.or_eq_true, Bool.and_eq_true, decide_eq_true_eq]
  omega

/-- What lies in different places can be put in the order of its places. -/
theorem Place.exists_order {β : Type} (place : β → Place) (l : List β)
    (distinct : (l.map place).Nodup) :
    ∃ order : List β, order.Perm l ∧ order.Pairwise fun a b => (place a).Before (place b) := by
  let sorted := l.mergeSort fun a b => (place a).notAfter (place b)
  have hPerm : sorted.Perm l := List.mergeSort_perm l _
  have hSorted : sorted.Pairwise fun a b => (place a).notAfter (place b) :=
    List.pairwise_mergeSort
      (fun a b c => Place.notAfter_trans (a := place a) (b := place b) (c := place c))
      (fun a b => Place.notAfter_total (place a) (place b)) l
  have hDistinct : sorted.Pairwise fun a b => place a ≠ place b :=
    List.pairwise_map.mp ((hPerm.map place).nodup_iff.mpr distinct)
  refine ⟨sorted, hPerm, hSorted.imp₂ ?_ hDistinct⟩
  exact fun a b hLe hNe => (Place.notAfter_iff.mp hLe).resolve_left hNe

namespace Pool

variable {p : Pool α} {m : Moment α} {order : List (Holding α)}

/-- These values are in the order of their slots. -/
def Ordered (p : Pool α) (order : List (Holding α)) : Prop :=
  order.Pairwise fun r s => (p.place r.handle).Before (p.place s.handle)

/-- What the end of a pool does to the slab at an index, when these values stand in the pool. -/
def slabTeardown (p : Pool α) (order : List (Holding α)) (k : Nat) : List (Effect α) :=
  Effect.drops ((order.filter fun r => (p.place r.handle).slab = k).map Holding.value) ++
    [.giveBack p.slabStorage]

/-- What the end of a pool does to its slabs. -/
def slabsTeardown (p : Pool α) (order : List (Holding α)) : List (Effect α) :=
  (List.range p.slabCount).flatMap (p.slabTeardown order)

/-- Slabs are torn down one after the other. -/
theorem teardownSlabs_eq (protocol : Nat → List (Effect α)) (storage : Layout)
    {slabs : List (Slab α)} {i : Nat} (h : ∀ j slab, slabs[j]? = some slab →
      ∀ env, slab.teardown storage env = Effect.perform (protocol (i + j)) env)
    (env : Environment) : teardownSlabs storage slabs env =
      Effect.perform ((List.range' i slabs.length).flatMap protocol) env := by
  induction slabs generalizing i env with
  | nil => rfl
  | cons slab rest ih =>
      have hFirst := h 0 slab rfl env
      have hRest := ih (i := i + 1) fun j slab' hSlab env => by
        rw [h (j + 1) slab' hSlab env, Nat.add_right_comm, Nat.add_assoc]
      rw [teardownSlabs, hFirst, List.length_cons, List.range'_succ, List.flatMap_cons,
        Effect.perform_append]
      rcases Effect.perform (protocol i) env with ⟨_ | fault, env'⟩
      · exact hRest env'
      · rfl

/-- What can be read in the slot of a value, or of what is left of one. -/
theorem Moment.Fits.read?_eq (fits : m.Fits) {r : Holding α}
    (h : r ∈ m.book.contents ∨ r ∈ m.book.spent) :
    (m.pool.slot? (m.pool.place r.handle)).bind Slot.read? = some r.value := by
  rcases h with h | h
  · obtain ⟨slot, hSlot, _, hRead⟩ := fits.exists_slot h
    exact Option.bind_eq_some_iff.mpr ⟨slot, hSlot, hRead⟩
  · obtain ⟨slot, hSlot, _, hRead⟩ := fits.exists_slot_spent h
    exact Option.bind_eq_some_iff.mpr ⟨slot, hSlot, hRead⟩

/-- At the end of a pool the slots of a slab are free or hold the values that the book tells of. -/
theorem Moment.Fits.split (fits : m.Fits) (hClaims : m.claims = []) (hClosing : m.book.closing = [])
    (hPerm : order.Perm m.book.held)
    (hOrder : m.pool.Ordered order)
    {k : Nat} {slab : Slab α} (hGet : m.pool.directory.get? k = some slab) {free : List Nat}
    (listed : slab.Listed (fun i => ⟨k, i⟩ ∈ Seat.sites m.seats) free) :
    slab.Split 0 free ((order.filter fun r => (m.pool.place r.handle).slab = k).map fun r =>
      ((m.pool.place r.handle).offset, r.value)) := by
  have hOffset : ∀ j, j ∈ (order.filter fun r => (m.pool.place r.handle).slab = k).map
      (fun r => (m.pool.place r.handle).offset) ↔ ⟨k, j⟩ ∈ Seat.sites m.seats := by
    intro j
    rw [m.mem_sites_iff, hClaims]
    simp only [List.mem_map, List.mem_filter, hPerm.mem_iff, decide_eq_true_eq, List.not_mem_nil,
      false_or, Place.eq_iff]
    constructor
    · rintro ⟨r, ⟨hMem, hSlab⟩, hOffset⟩
      exact ⟨r, hMem, hSlab.symm, hOffset.symm⟩
    · rintro ⟨r, hMem, hSlab, hOffset⟩
      exact ⟨r, ⟨hMem, hSlab.symm⟩, hOffset.symm⟩
  have hSize := fits.housed.tidy.size k slab hGet
  constructor
  · exact listed.ascending
  · rw [List.map_map]
    apply List.pairwise_map.mpr
    apply (hOrder.filter _).imp_of_mem
    intro r s hr hs hBefore
    have hSlab := of_decide_eq_true (List.mem_filter.mp hr).2
    have hSlab' := of_decide_eq_true (List.mem_filter.mp hs).2
    rcases hBefore with hLt | hBefore
    · omega
    · exact hBefore.2
  · exact fun j _ => Nat.zero_le j
  · exact fun j hFree => ((listed.mem_iff j).mp hFree).1
  · exact fun j _ => Nat.zero_le j
  · intro j hj hFree
    rw [List.map_map] at hj
    exact ((listed.mem_iff j).mp hFree).2 ((hOffset j).mp hj)
  · intro j _ hLt
    rw [List.map_map, listed.mem_iff]
    by_cases hTaken : ⟨k, j⟩ ∈ Seat.sites m.seats
    · exact Or.inr ((hOffset j).mpr hTaken)
    · exact Or.inl ⟨hLt, hTaken⟩
  · intro h hMem
    obtain ⟨r, hr, rfl⟩ := List.mem_map.mp hMem
    obtain ⟨hMem, hSlab⟩ := List.mem_filter.mp hr
    have hHeld := hPerm.mem_iff.mp hMem
    simp only [Book.held, hClosing, List.append_nil, List.mem_append] at hHeld
    have hRead := fits.read?_eq hHeld
    rwa [slot?, of_decide_eq_true hSlab, hGet, Option.bind_some] at hRead

/-- The end of a pool, when no construction and no drop is under way: the slabs are torn down, up to
the first fault, and then the directory is given back. -/
theorem Moment.Fits.dispose_eq (fits : m.Fits) (hClaims : m.claims = [])
    (hClosing : m.book.closing = []) (hPerm : order.Perm m.book.held)
    (hOrder : m.pool.Ordered order)
    (env : Environment) : m.pool.dispose env =
      match Effect.perform (m.pool.slabsTeardown order) env with
      | (fault, env) => (fault, m.pool.directory.release directoryEntry env) := by
  have hSlabs : teardownSlabs m.pool.slabStorage m.pool.directory.items.toList env =
      Effect.perform (m.pool.slabsTeardown order) env := by
    rw [slabsTeardown, List.range_eq_range']
    apply teardownSlabs_eq (m.pool.slabTeardown order)
    intro k slab hSlab env
    have hGet : m.pool.directory.get? k = some slab := by simpa [Table.get?] using hSlab
    obtain ⟨free, listed⟩ := fits.housed.tidy.listed k slab hGet
    have split := fits.split hClaims hClosing hPerm hOrder hGet listed
    rw [Slab.teardown_eq listed.threads split, List.map_map, Nat.zero_add, slabTeardown]
    rfl
  rw [dispose, hSlabs]

/-- The directory gives its block back, if it has one. -/
theorem release_directory_eq (p : Pool α) (env : Environment) :
    p.directory.release directoryEntry env =
      Effect.replay (p.directoryBlock.map .giveBack : List (Effect α)) env := by
  rw [Table.release, directoryBlock]
  split <;> rfl

/-- What the end of a pool does when no drop ends in a fault. -/
def teardown (p : Pool α) (order : List (Holding α)) : List (Effect α) :=
  p.slabsTeardown order ++ p.directoryBlock.map .giveBack

/-- Without a fault the end of a pool is its teardown. -/
theorem Moment.Fits.dispose_eq_of_quiet (fits : m.Fits) (hClaims : m.claims = [])
    (hClosing : m.book.closing = []) (hPerm : order.Perm m.book.held)
    (hOrder : m.pool.Ordered order)
    {env : Environment} (hQuiet : (m.pool.dispose env).1 = none) :
    m.pool.dispose env = (none, Effect.replay (m.pool.teardown order) env) := by
  have hEq := fits.dispose_eq hClaims hClosing hPerm hOrder env
  rw [hEq] at hQuiet ⊢
  have hReplay := Effect.perform_snd_of_fault_eq_none hQuiet
  rw [teardown, Effect.replay_append, ← hReplay, ← release_directory_eq]
  exact Prod.ext hQuiet rfl

/-- The values that stand in a pool can be put in the order of their slots. -/
theorem Moment.Fits.exists_order (fits : m.Fits) :
    ∃ order : List (Holding α), order.Perm m.book.held ∧ m.pool.Ordered order :=
  Place.exists_order (fun r : Holding α => m.pool.place r.handle) m.book.held fits.nodup_held

end Pool
end TaskMemory

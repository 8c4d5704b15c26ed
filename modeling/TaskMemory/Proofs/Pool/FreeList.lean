import Mathlib.Algebra.Group.Nat.Defs
import Mathlib.Data.List.Perm.Subperm
import Mathlib.Data.List.TakeWhile
import TaskMemory.Pool.Slab

/-!
The free list of a slab. The links stand in the slots that may hold values as well, so the list is
described by what the links read: `Threads` follows them, and `Listed` says that they lead through
the free slots in ascending order, from the head of the slab to the end. Taking the lowest slot and
putting a slot back keep this, and neither touches a slot that holds a value.
-/
namespace TaskMemory

variable {α : Type}

/-- A link is read back. The bound keeps a slot number apart from the word that links nowhere. -/
theorem Slot.next_linkTo (slot : Slot α) {next : Option Nat} (h : ∀ i ∈ next, i < 2 ^ 32 - 1) :
    (slot.linkTo next).next = next := by
  cases next with
  | none => simp [Slot.linkTo, Slot.next]
  | some i =>
      have hLt : i < 2 ^ 32 - 1 := h i rfl
      have hNat : i.toUInt32.toNat = i := by
        rw [Nat.toUInt32_eq, UInt32.toNat_ofNat', Nat.mod_eq_of_lt (by omega)]
      have hNe : i.toUInt32 ≠ Slot.noLink := by
        intro he
        have := congrArg UInt32.toNat he
        rw [hNat] at this
        change i = 4294967295 at this
        omega
      simp [Slot.linkTo, Slot.next, hNe, hNat]

def Slot.flags (slot : Slot α) : Bool × Bool := (slot.claimed, slot.live)

namespace Slab

variable {s : Slab α} {taken : Nat → Prop} {free : List Nat} {i : Nat}

/-- The links lead from `start` through exactly these slots and then to `stop`. -/
def Threads (s : Slab α) : Option Nat → List Nat → Option Nat → Prop
  | start, [], stop => start = stop
  | start, i :: rest, stop => start = some i ∧ s.Threads (s.nextFree i) rest stop

/-- The free list of a slab, when these slots are taken. -/
structure Listed (s : Slab α) (taken : Nat → Prop) (free : List Nat) : Prop where
  threads : s.Threads s.head free none
  ascending : free.Pairwise (· < ·)
  count : s.freeCount = free.length
  mem_iff : ∀ i, i ∈ free ↔ i < s.slots.size ∧ ¬ taken i

theorem Threads.congr {t : Slab α} {start stop : Option Nat} (h : s.Threads start free stop)
    (hNext : ∀ i ∈ free, t.nextFree i = s.nextFree i) : t.Threads start free stop := by
  induction free generalizing start with
  | nil => exact h
  | cons i rest ih =>
      refine ⟨h.1, ?_⟩
      rw [hNext i List.mem_cons_self]
      exact ih h.2 fun j hj => hNext j (List.mem_cons_of_mem _ hj)

/-- A chain may be cut anywhere. -/
theorem threads_append {start stop : Option Nat} (low high : List Nat) :
    s.Threads start (low ++ high) stop ↔
      ∃ middle, s.Threads start low middle ∧ s.Threads middle high stop := by
  induction low generalizing start with
  | nil => simp [Threads]
  | cons i rest ih => simp [Threads, ih, and_assoc]

/-- A list that ends starts with its first slot. -/
theorem Threads.start_eq {start : Option Nat} (h : s.Threads start free none) :
    start = free.head? := by
  cases free with
  | nil => exact h
  | cons i rest => exact h.1

/-- There is one chain from a slot on. -/
theorem Threads.unique {start : Option Nat} {free' : List Nat} (h : s.Threads start free none)
    (h' : s.Threads start free' none) : free = free' := by
  induction free generalizing start free' with
  | nil =>
      obtain rfl : start = none := h
      cases free' with
      | nil => rfl
      | cons i rest => cases h'.1
  | cons i rest ih =>
      obtain ⟨rfl, hRest⟩ := h
      cases free' with
      | nil => cases h'
      | cons j rest' =>
          obtain rfl : i = j := Option.some.inj h'.1
          rw [ih hRest h'.2]

theorem getElem?_update (s : Slab α) (i j : Nat) (change : Slot α → Slot α) :
    (s.update i change).slots[j]? = if i = j then s.slots[j]?.map change else s.slots[j]? :=
  Array.getElem?_modify

@[simp] theorem size_update (s : Slab α) (i : Nat) (change : Slot α → Slot α) :
    (s.update i change).slots.size = s.slots.size :=
  Array.size_modify

/-- To change a slot leaves the links of the others. -/
theorem nextFree_update_of_ne (change : Slot α → Slot α) {j : Nat} (h : i ≠ j) :
    (s.update i change).nextFree j = s.nextFree j := by
  simp [nextFree, getElem?_update, h]

/-- A taken slot may change in any way. -/
theorem Listed.update (listed : s.Listed taken free) (hTaken : taken i)
    (change : Slot α → Slot α) : (s.update i change).Listed taken free where
  threads := by
    apply listed.threads.congr
    intro j hj
    apply nextFree_update_of_ne
    rintro rfl
    exact ((listed.mem_iff i).mp hj).2 hTaken
  ascending := listed.ascending
  count := listed.count
  mem_iff := by simpa using listed.mem_iff

/-- The free list depends on which slots are taken and on nothing else. -/
theorem Listed.congr {taken' : Nat → Prop} (listed : s.Listed taken free)
    (h : ∀ i, taken i ↔ taken' i) : s.Listed taken' free where
  threads := listed.threads
  ascending := listed.ascending
  count := listed.count
  mem_iff i := by rw [listed.mem_iff, h]

/-- The head of the list is claimed, and its link is the new head. -/
theorem unlink_of_head (h : s.head = some i) :
    s.unlink = { s.update i Slot.claim with
      head := s.nextFree i, freeCount := s.freeCount - 1 } := by
  simp [unlink, h]

@[simp] theorem size_unlink (s : Slab α) : s.unlink.slots.size = s.slots.size := by
  unfold unlink
  split <;> simp

/-- The lowest free slot becomes a taken one. -/
theorem Listed.unlink (listed : s.Listed taken (i :: free)) :
    s.unlink.Listed (fun j => taken j ∨ j = i) free := by
  rw [unlink_of_head listed.threads.1]
  have hBelow := List.pairwise_cons.mp listed.ascending
  constructor
  · apply listed.threads.2.congr
    intro j hj
    exact nextFree_update_of_ne Slot.claim (Nat.ne_of_lt (hBelow.1 j hj))
  · exact hBelow.2
  · simp [listed.count]
  · intro j
    have hMem := listed.mem_iff j
    have hNotMem : i ∉ free := fun hi => Nat.lt_irrefl i (hBelow.1 i hi)
    simp only [List.mem_cons] at hMem
    simp only [size_update, not_or]
    constructor
    · intro hj
      obtain ⟨hLt, hFree⟩ := hMem.mp (Or.inr hj)
      exact ⟨hLt, hFree, fun he => hNotMem (he ▸ hj)⟩
    · rintro ⟨hLt, hFree, hNe⟩
      exact (hMem.mpr ⟨hLt, hFree⟩).resolve_left hNe

/-- Only the claimed slot changes. -/
theorem Listed.getElem?_unlink (listed : s.Listed taken (i :: free)) (k : Nat) :
    s.unlink.slots[k]? = if i = k then s.slots[k]?.map Slot.claim else s.slots[k]? := by
  rw [unlink_of_head listed.threads.1]
  exact getElem?_update s i k Slot.claim

/-- The walk along the list stops in front of the first slot that is not below. By induction on the
list, with enough steps for all of it. -/
theorem seek_eq {before after : Option Nat} {steps : Nat} (hThreads : s.Threads after free none)
    (hSteps : free.length ≤ steps) :
    s.seek i steps before after =
      ((free.takeWhile (· < i)).getLast?.or before, (free.dropWhile (· < i)).head?) := by
  induction free generalizing before after steps with
  | nil =>
      obtain rfl : after = none := hThreads
      cases steps <;> simp [seek]
  | cons j rest ih =>
      obtain ⟨rfl, hRest⟩ := hThreads
      cases steps with
      | zero => simp at hSteps
      | succ steps =>
          by_cases hLt : j < i
          · rw [seek]
            simp only [hLt, ↓reduceIte]
            rw [ih hRest (by simpa using hSteps)]
            simp [hLt, List.getLast?_cons]
          · simp [seek, hLt]

theorem Listed.lt_size (listed : s.Listed taken free) {j : Nat} (hj : j ∈ free) :
    j < s.slots.size :=
  ((listed.mem_iff j).mp hj).1

theorem Listed.length_le (listed : s.Listed taken free) : free.length ≤ s.slots.size := by
  have hNodup : free.Nodup := listed.ascending.imp Nat.ne_of_lt
  have hSub : free ⊆ List.range s.slots.size := fun j hj =>
    List.mem_range.mpr (listed.lt_size hj)
  simpa using (List.subperm_of_subset hNodup hSub).length_le

/-- The neighbours of a slot are the last free slot below it and the first one from it on. -/
theorem Listed.neighbours_eq (listed : s.Listed taken free) (i : Nat) :
    s.neighbours i = ((free.takeWhile (· < i)).getLast?, (free.dropWhile (· < i)).head?) := by
  rw [neighbours, seek_eq listed.threads listed.length_le, Option.or_none]

/-- What is left of a sorted list are its elements from a number on. -/
theorem mem_dropWhile_iff (ascending : free.Pairwise (· < ·)) {j : Nat} :
    j ∈ free.dropWhile (· < i) ↔ j ∈ free ∧ i ≤ j := by
  induction free with
  | nil => simp
  | cons k rest ih =>
      obtain ⟨hBelow, hRest⟩ := List.pairwise_cons.mp ascending
      by_cases hLt : k < i
      · simp only [List.dropWhile_cons, hLt, decide_true, ↓reduceIte, ih hRest, List.mem_cons]
        constructor
        · exact fun h => ⟨Or.inr h.1, h.2⟩
        · rintro ⟨rfl | hj, hLe⟩
          · omega
          · exact ⟨hj, hLe⟩
      · simp only [List.dropWhile_cons, hLt, decide_false, Bool.false_eq_true, ↓reduceIte]
        refine ⟨fun hj => ⟨hj, ?_⟩, And.left⟩
        rcases List.mem_cons.mp hj with rfl | hj
        · omega
        · have := hBelow j hj
          omega

theorem lt_of_mem_takeWhile {j : Nat} (hj : j ∈ free.takeWhile (· < i)) : j < i := by
  simpa using List.mem_takeWhile_imp hj

/-- The walk finds out whether a slot is on the list. -/
theorem Listed.isFree_iff (listed : s.Listed taken free) (i : Nat) :
    s.isFree i = true ↔ i ∈ free := by
  rw [isFree, listed.neighbours_eq, decide_eq_true_eq]
  constructor
  · intro h
    exact (List.dropWhile_sublist _).subset (List.mem_of_mem_head? h)
  · intro h
    have hMem := (mem_dropWhile_iff listed.ascending).mpr ⟨h, Nat.le_refl i⟩
    have hLow := fun j => mem_dropWhile_iff listed.ascending (i := i) (j := j)
    have hAscending := listed.ascending.sublist (List.dropWhile_sublist (· < i))
    cases hHigh : free.dropWhile (· < i) with
    | nil => simp [hHigh] at hMem
    | cons j rest =>
        rw [hHigh] at hMem hLow hAscending
        rcases List.mem_cons.mp hMem with rfl | hRest
        · rfl
        · have hLe := ((hLow j).mp List.mem_cons_self).2
          have hLt := (List.pairwise_cons.mp hAscending).1 i hRest
          omega

/-- A slot below all free ones becomes the head. -/
theorem link_of_first {after : Option Nat} (h : s.neighbours i = (none, after)) :
    s.link i = { s.update i fun slot => { slot.linkTo after with claimed := false } with
      head := some i, freeCount := s.freeCount + 1 } := by
  simp [link, h]

/-- A slot with a free one below it is linked behind that one. -/
theorem link_of_behind {j : Nat} {after : Option Nat} (h : s.neighbours i = (some j, after)) :
    s.link i = { (s.update i fun slot => { slot.linkTo after with claimed := false }).update j
      (Slot.linkTo (some i)) with freeCount := s.freeCount + 1 } := by
  simp [link, h]

@[simp] theorem size_link (s : Slab α) (i : Nat) : (s.link i).slots.size = s.slots.size := by
  rcases h : s.neighbours i with ⟨_ | j, after⟩
  · simp [link_of_first h]
  · simp [link_of_behind h]

theorem getElem?_link_of_first {after : Option Nat} (h : s.neighbours i = (none, after))
    (k : Nat) : (s.link i).slots[k]? =
      if i = k then s.slots[k]?.map fun slot => { slot.linkTo after with claimed := false }
      else s.slots[k]? := by
  rw [link_of_first h]
  exact getElem?_update s i k _

/-- Behind a neighbour the link of that one changes as well. -/
theorem getElem?_link_of_behind {j : Nat} {after : Option Nat}
    (h : s.neighbours i = (some j, after)) (hNe : i ≠ j) (k : Nat) : (s.link i).slots[k]? =
      if j = k then s.slots[k]?.map (Slot.linkTo (some i))
      else if i = k then s.slots[k]?.map fun slot => { slot.linkTo after with claimed := false }
      else s.slots[k]? := by
  rw [link_of_behind h]
  change (Slab.update _ j _).slots[k]? = _
  rw [getElem?_update, getElem?_update]
  by_cases hJ : j = k
  · simp [hJ, show i ≠ k from hJ ▸ hNe]
  · simp [hJ]

theorem Listed.ne_of_mem (listed : s.Listed taken free) {j : Nat} (hj : j ∈ free)
    (hTaken : taken i) : i ≠ j := by
  rintro rfl
  exact ((listed.mem_iff i).mp hj).2 hTaken

/-- The number of a free slot cannot be mistaken for the end of the list. -/
theorem Listed.lt_noLink (listed : s.Listed taken free) (hRoom : s.slots.size < 2 ^ 32) {j : Nat}
    (hj : j ∈ free) : j < 2 ^ 32 - 1 := by
  have := listed.lt_size hj
  omega

/-- A slot that is put back in front of the list becomes its head. -/
theorem Listed.threads_link_first (listed : s.Listed taken free) (hTaken : taken i)
    (hi : i < s.slots.size) (hRoom : s.slots.size < 2 ^ 32)
    (hNeighbours : s.neighbours i = (none, free.head?)) :
    (s.link i).Threads (s.link i).head (i :: free) none := by
  have hSlots := getElem?_link_of_first hNeighbours
  have hSelf : (s.link i).nextFree i = s.head := by
    rw [nextFree, hSlots, if_pos rfl, Array.getElem?_eq_getElem hi, listed.threads.start_eq]
    exact Slot.next_linkTo s.slots[i] fun j hj =>
      listed.lt_noLink hRoom (List.mem_of_mem_head? hj)
  refine ⟨by rw [link_of_first hNeighbours], ?_⟩
  rw [hSelf]
  apply listed.threads.congr
  intro k hk
  rw [nextFree, hSlots, if_neg (listed.ne_of_mem hk hTaken), nextFree]

/-- A slot that is put back behind another one stands between it and the rest of the list. -/
theorem Listed.threads_link_behind {front high : List Nat} {j : Nat}
    (listed : s.Listed taken (front ++ j :: high)) (hTaken : taken i) (hi : i < s.slots.size)
    (hRoom : s.slots.size < 2 ^ 32) (hNeighbours : s.neighbours i = (some j, high.head?)) :
    (s.link i).Threads (s.link i).head (front ++ j :: i :: high) none := by
  have hNe : i ≠ j := listed.ne_of_mem (by simp) hTaken
  have hLt : j < s.slots.size := listed.lt_size (by simp)
  have hSlots := getElem?_link_of_behind hNeighbours hNe
  obtain ⟨start, hFront, rfl, hHigh⟩ := (threads_append front (j :: high)).mp listed.threads
  have hSelf : (s.link i).nextFree i = s.nextFree j := by
    have hBelow : ∀ k ∈ high.head?, k < 2 ^ 32 - 1 := fun k hk => listed.lt_noLink hRoom
      (List.mem_append_right front (List.mem_cons_of_mem j (List.mem_of_mem_head? hk)))
    rw [nextFree, hSlots, if_neg hNe.symm, if_pos rfl, Array.getElem?_eq_getElem hi,
      hHigh.start_eq]
    exact Slot.next_linkTo s.slots[i] hBelow
  have hBehind : (s.link i).nextFree j = some i := by
    rw [nextFree, hSlots, if_pos rfl, Array.getElem?_eq_getElem hLt]
    exact Slot.next_linkTo _ (by simp; omega)
  have hNodup : (front ++ j :: high).Nodup := listed.ascending.imp Nat.ne_of_lt
  have hKept : ∀ k ∈ front ++ high, (s.link i).nextFree k = s.nextFree k := by
    intro k hk
    have hI : i ≠ k := listed.ne_of_mem (by
      simp only [List.mem_append, List.mem_cons] at hk ⊢
      tauto) hTaken
    have hJ : j ≠ k := by
      rintro rfl
      rw [List.perm_middle.nodup_iff] at hNodup
      exact (List.nodup_cons.mp hNodup).1 hk
    rw [nextFree, hSlots, if_neg hJ, if_neg hI, nextFree]
  have hHead : (s.link i).head = s.head := by
    rw [link_of_behind hNeighbours]
    rfl
  rw [threads_append]
  refine ⟨some j, ?_, rfl, hBehind, ?_⟩
  · rw [hHead]
    exact hFront.congr fun k hk => hKept k (List.mem_append_left high hk)
  · rw [hSelf]
    exact hHigh.congr fun k hk => hKept k (List.mem_append_right front hk)

/-- Putting a slot in between two parts of the list threads them together again. -/
theorem Listed.threads_link (listed : s.Listed taken free) (hTaken : taken i)
    (hi : i < s.slots.size) (hRoom : s.slots.size < 2 ^ 32) {low high : List Nat}
    (hFree : free = low ++ high) (hNeighbours : s.neighbours i = (low.getLast?, high.head?)) :
    (s.link i).Threads (s.link i).head (low ++ i :: high) none := by
  subst hFree
  rcases List.eq_nil_or_concat' low with rfl | ⟨front, j, rfl⟩
  · exact listed.threads_link_first hTaken hi hRoom hNeighbours
  · rw [List.getLast?_concat] at hNeighbours
    rw [List.append_assoc, List.singleton_append] at listed ⊢
    exact listed.threads_link_behind hTaken hi hRoom hNeighbours

/-- A taken slot is put back in its place. -/
theorem Listed.link (listed : s.Listed taken free) (hTaken : taken i) (hi : i < s.slots.size)
    (hRoom : s.slots.size < 2 ^ 32) :
    (s.link i).Listed (fun j => taken j ∧ j ≠ i)
      (free.takeWhile (· < i) ++ i :: free.dropWhile (· < i)) := by
  have hSplit : free = free.takeWhile (· < i) ++ free.dropWhile (· < i) :=
    List.takeWhile_append_dropWhile.symm
  have hNotMem : i ∉ free := fun h => ((listed.mem_iff i).mp h).2 hTaken
  have hAbove : ∀ j ∈ free.dropWhile (· < i), i < j := by
    intro j hj
    obtain ⟨hMem, hLe⟩ := (mem_dropWhile_iff listed.ascending).mp hj
    exact Nat.lt_of_le_of_ne hLe fun he => hNotMem (he ▸ hMem)
  constructor
  · exact listed.threads_link hTaken hi hRoom hSplit (listed.neighbours_eq i)
  · rw [List.pairwise_append, List.pairwise_cons]
    refine ⟨listed.ascending.sublist (List.takeWhile_sublist _),
      ⟨hAbove, listed.ascending.sublist (List.dropWhile_sublist _)⟩, ?_⟩
    intro j hj k hk
    have hLow := lt_of_mem_takeWhile hj
    rcases List.mem_cons.mp hk with rfl | hk
    · exact hLow
    · exact hLow.trans (hAbove k hk)
  · have hCount : (s.link i).freeCount = s.freeCount + 1 := by
      rcases h : s.neighbours i with ⟨_ | j, after⟩
      · simp [link_of_first h]
      · simp [link_of_behind h]
    have hLength := congrArg List.length hSplit
    simp only [List.length_append] at hLength
    rw [hCount, listed.count]
    simp only [List.length_append, List.length_cons]
    omega
  · intro j
    have hMem : j ∈ free.takeWhile (· < i) ++ i :: free.dropWhile (· < i) ↔ j = i ∨ j ∈ free := by
      conv_rhs => rw [hSplit]
      simp only [List.mem_append, List.mem_cons]
      tauto
    rw [hMem, listed.mem_iff, size_link]
    constructor
    · rintro (rfl | ⟨hLt, hFree⟩)
      · exact ⟨hi, by simp⟩
      · exact ⟨hLt, fun h => hFree h.1⟩
    · rintro ⟨hLt, hFree⟩
      by_cases hNe : j = i
      · exact Or.inl hNe
      · exact Or.inr ⟨hLt, fun h => hFree ⟨h, hNe⟩⟩

/-- The neighbour below a slot is free. -/
theorem Listed.mem_of_behind (listed : s.Listed taken free) {j : Nat} {after : Option Nat}
    (h : s.neighbours i = (some j, after)) : j ∈ free := by
  rw [listed.neighbours_eq, Prod.mk.injEq] at h
  exact (List.takeWhile_sublist _).subset (List.mem_of_getLast? h.1)

/-- Putting a slot back leaves every other taken slot alone. -/
theorem Listed.getElem?_link_of_taken (listed : s.Listed taken free) (hTaken : taken i) {k : Nat}
    (hk : taken k) (hNe : i ≠ k) : (s.link i).slots[k]? = s.slots[k]? := by
  rcases h : s.neighbours i with ⟨_ | j, after⟩
  · rw [getElem?_link_of_first h, if_neg hNe]
  · have hMem := listed.mem_of_behind h
    rw [getElem?_link_of_behind h (listed.ne_of_mem hMem hTaken),
      if_neg (listed.ne_of_mem hMem hk).symm, if_neg hNe]

/-- Putting a slot back ends the claim on it; otherwise it keeps whose the slots are. -/
theorem Listed.flags_link (listed : s.Listed taken free) (hTaken : taken i) (k : Nat) :
    (s.link i).slots[k]?.map Slot.flags =
      if i = k then s.slots[k]?.map fun slot => (false, slot.live)
      else s.slots[k]?.map Slot.flags := by
  rcases h : s.neighbours i with ⟨_ | j, after⟩
  · rw [getElem?_link_of_first h]
    split <;> cases s.slots[k]? <;> rfl
  · have hNe := listed.ne_of_mem (listed.mem_of_behind h) hTaken
    rw [getElem?_link_of_behind h hNe]
    by_cases hJ : j = k
    · rw [if_pos hJ, if_neg (hJ ▸ hNe)]
      cases s.slots[k]? <;> rfl
    · rw [if_neg hJ]
      split <;> cases s.slots[k]? <;> rfl

theorem nextFree_update_retire (s : Slab α) (i j : Nat) :
    (s.update i Slot.retire).nextFree j = s.nextFree j := by
  rw [nextFree, getElem?_update, nextFree]
  split <;> cases s.slots[j]? <;> rfl

/-- The walk along the list looks at links only. -/
theorem seek_update_retire (s : Slab α) (i : Nat) (steps : Nat) (before after : Option Nat) :
    (s.update i Slot.retire).seek i steps before after = s.seek i steps before after := by
  induction steps generalizing before after with
  | zero => rfl
  | succ steps ih =>
      cases after with
      | none => rfl
      | some j => simp only [seek, nextFree_update_retire, ih]

/-- Changes that may be made in either order to one slot may be so to two. -/
theorem update_comm (s : Slab α) (i j : Nat) (change next : Slot α → Slot α)
    (h : ∀ slot, next (change slot) = change (next slot)) :
    (s.update i change).update j next = (s.update j next).update i change := by
  have hSlots : (s.slots.modify i change).modify j next =
      (s.slots.modify j next).modify i change := by
    apply Array.ext_getElem?
    intro k
    simp only [Array.getElem?_modify]
    split <;> split <;> cases s.slots[k]? <;> simp [h]
  simp only [update, hSlots]

/-- A value may be noted as gone before its slot is put back or after that. -/
theorem update_retire_link (s : Slab α) (i : Nat) :
    (s.link i).update i Slot.retire = (s.update i Slot.retire).link i := by
  have hSame : (s.update i Slot.retire).neighbours i = s.neighbours i := by
    rw [neighbours, size_update, seek_update_retire]
    rfl
  rcases h : s.neighbours i with ⟨_ | j, after⟩
  · rw [link_of_first h, link_of_first (hSame.trans h)]
    have hComm := update_comm s i i (fun slot => { slot.linkTo after with claimed := false })
      Slot.retire fun _ => rfl
    exact congrArg (fun t : Slab α => { t with head := some i, freeCount := s.freeCount + 1 }) hComm
  · rw [link_of_behind h, link_of_behind (hSame.trans h)]
    have hBack := update_comm s i i (fun slot => { slot.linkTo after with claimed := false })
      Slot.retire fun _ => rfl
    have hBehind := update_comm
      (s.update i fun slot => { slot.linkTo after with claimed := false }) j i
      (Slot.linkTo (some i)) Slot.retire fun _ => rfl
    rw [hBack] at hBehind
    exact congrArg (fun t : Slab α => { t with freeCount := s.freeCount + 1 }) hBehind

/-- The slots of a new slab are linked one to the next. By induction on those from a slot on. -/
theorem threads_fresh {capacity : Nat} (hRoom : capacity < 2 ^ 32) (i n : Nat)
    (h : i + n = capacity) : (fresh capacity : Slab α).Threads
      (if n = 0 then none else some i) (List.range' i n) none := by
  induction n generalizing i with
  | zero => rfl
  | succ n ih =>
      refine ⟨rfl, ?_⟩
      have hNext : (fresh capacity : Slab α).nextFree i = if n = 0 then none else some (i + 1) := by
        have hSlot : (fresh capacity : Slab α).slots[i]? = some (Slot.linkTo
            (if i + 1 = capacity then none else some (i + 1)) { word := 0 }) := by
          rw [fresh, Array.getElem?_ofFn, dif_pos (by omega)]
        rw [nextFree, hSlot, Option.bind_some, Slot.next_linkTo]
        · by_cases hLast : n = 0
          · simp [hLast, show i + 1 = capacity by omega]
          · simp [hLast, show i + 1 ≠ capacity by omega]
        · intro j hj
          by_cases hLast : i + 1 = capacity
          · simp [hLast] at hj
          · simp only [hLast, ↓reduceIte, Option.mem_def, Option.some.injEq] at hj
            omega
      rw [hNext]
      exact ih (i + 1) (by omega)

@[simp] theorem size_fresh (capacity : Nat) :
    (fresh capacity : Slab α).slots.size = capacity := by
  simp [fresh]

/-- All slots of a new slab are free. -/
theorem listed_fresh {capacity : Nat} (hRoom : capacity < 2 ^ 32) :
    (fresh capacity : Slab α).Listed (fun _ => False) (List.range capacity) where
  threads := by
    rw [List.range_eq_range']
    exact threads_fresh hRoom 0 capacity (by omega)
  ascending := List.pairwise_lt_range
  count := by simp [fresh]
  mem_iff i := by simp

/-- The slots of a new slab belong to nobody. -/
theorem fresh_slot {capacity : Nat} {slot : Slot α}
    (h : (fresh capacity : Slab α).slots[i]? = some slot) :
    slot.flags = (false, false) := by
  rw [fresh, Array.getElem?_ofFn] at h
  split at h
  · obtain rfl := Option.some.inj h
    rfl
  · cases h

end Slab
end TaskMemory

import Mathlib.Data.List.Induction
import TaskMemory.Proofs.Memory.Doubling
import TaskMemory.Proofs.Pool.Effect

/-!
What a table asks of the memory while it is filled entry by entry. It goes through a row of blocks,
each twice as large as the one before, and it has two of them only while it moves from one to the
next. So the account of its memory follows from the number of its entries.
-/
namespace TaskMemory

namespace Effect

variable {α : Type}

def obtained? : Effect α → Option Layout
  | obtain block => some block
  | _ => none

def returned? : Effect α → Option Layout
  | giveBack block => some block
  | _ => none

/-- The blocks that are obtained in the course of a protocol, in that order. -/
def obtained (es : List (Effect α)) : List Layout := es.filterMap obtained?

def returned (es : List (Effect α)) : List Layout := es.filterMap returned?

/-- Effects are granted as a whole if each part is granted when its turn comes. -/
theorem granted_append [Stored α] (es fs : List (Effect α)) (env : Environment) :
    Granted (es ++ fs) env ↔ Granted es env ∧ Granted fs (replay es env) := by
  induction es generalizing env with
  | nil => rw [List.nil_append, replay_nil, Granted, true_and]
  | cons e es ih =>
      rw [List.cons_append, Granted, Granted, ih, and_assoc]
      rfl

end Effect

namespace Table

variable {α : Type} (entry : Layout) {n : Nat}

/-- How often a table has doubled its room when it has so many entries. -/
def doublings (n : Nat) : Nat := Nat.clog 2 n - 2

theorem roomFor_mono {m : Nat} (h : m ≤ n) : roomFor m ≤ roomFor n := by
  by_cases hNone : m = 0
  · exact hNone ▸ Nat.zero_le _
  · have hSome : n ≠ 0 := fun hZero => hNone (Nat.le_zero.mp (hZero ▸ h))
    obtain ⟨⟨hLe, hPow⟩, -⟩ := isLeast_roomFor hSome
    exact (isLeast_roomFor hNone).2 ⟨h.trans hLe, hPow⟩

/-- Room comes in doublings of the first four places. -/
theorem roomFor_eq (h : n ≠ 0) : roomFor n = 4 * 2 ^ doublings n := by
  have hMax : max 2 (Nat.clog 2 n) = 2 + doublings n := by
    rw [doublings]
    omega
  rw [roomFor, if_neg h, hMax, Nat.pow_add]

/-- The room says how often it has been doubled. -/
theorem doublings_eq {k : Nat} (h : n ≠ 0) (hRoom : roomFor n = 4 * 2 ^ k) : doublings n = k := by
  rw [roomFor_eq h] at hRoom
  exact Nat.pow_right_injective (Nat.le_refl 2) (Nat.eq_of_mul_eq_mul_left (by decide) hRoom)

/-- A full table is doubled for the next entry. -/
theorem doublings_succ_of_full (h : n ≠ 0) (hFull : n = roomFor n) :
    doublings (n + 1) = doublings n + 1 := by
  apply doublings_eq (Nat.succ_ne_zero n)
  rw [roomFor_succ, if_pos hFull, nextCapacity, if_neg (mt roomFor_eq_zero_iff.mp h),
    roomFor_eq h, Nat.pow_succ, Nat.mul_assoc]

theorem doublings_succ_of_room (h : n ≠ 0) (hRoom : n ≠ roomFor n) :
    doublings (n + 1) = doublings n := by
  apply doublings_eq (Nat.succ_ne_zero n)
  rw [roomFor_succ, if_neg hRoom, roomFor_eq h]

/-- The block of a table that has doubled its room so often. -/
def blockAfter (k : Nat) : Layout := entry.array (4 * 2 ^ k)

/-- The requests of a table up to so many doublings. -/
def climb : Nat → List (Effect Unit)
  | 0 => [.obtain (blockAfter entry 0)]
  | k + 1 => climb k ++ [.obtain (blockAfter entry (k + 1)), .giveBack (blockAfter entry k)]

/-- The requests of a table that is filled with so many entries. -/
def course (n : Nat) : List (Effect Unit) := if n = 0 then [] else climb entry (doublings n)

/-- The requests of a table that gets one entry more. -/
def growth (size capacity : Nat) : List (Effect Unit) :=
  if size = capacity then
    .obtain (entry.array (nextCapacity capacity)) ::
      if capacity = 0 then [] else [.giveBack (entry.array capacity)]
  else []

theorem grow_eq (t : Table α) (env : Environment) (hFull : t.size = t.capacity) :
    t.grow entry env = ({ t with capacity := nextCapacity t.capacity },
      Effect.replay (growth entry t.size t.capacity) env) := by
  rw [grow, growth, if_pos hFull]
  split <;> rfl

/-- A push asks for room if the table is full, and only then. -/
theorem push_eq (t : Table α) (a : α) (env : Environment) : t.push entry a env =
    (⟨t.items.push a, if t.size = t.capacity then nextCapacity t.capacity else t.capacity⟩,
      Effect.replay (growth entry t.size t.capacity) env) := by
  by_cases hFull : t.size = t.capacity
  · have hItems : t.items.size = t.capacity := hFull
    rw [push, if_pos hItems, grow_eq entry t env hFull, if_pos hFull]
  · have hItems : ¬t.items.size = t.capacity := hFull
    rw [push, if_neg hItems, growth, if_neg hFull, if_neg hFull]
    rfl

theorem course_succ (n : Nat) :
    course entry (n + 1) = course entry n ++ growth entry n (roomFor n) := by
  rw [course, if_neg (Nat.succ_ne_zero n), course]
  by_cases h : n = 0
  · subst h
    rfl
  · rw [if_neg h, growth]
    by_cases hFull : n = roomFor n
    · rw [if_pos hFull, if_neg (mt roomFor_eq_zero_iff.mp h), doublings_succ_of_full h hFull, climb]
      rw [nextCapacity, if_neg (mt roomFor_eq_zero_iff.mp h), roomFor_eq h, blockAfter, blockAfter,
        Nat.pow_succ, Nat.mul_assoc]
    · rw [if_neg hFull, doublings_succ_of_room h hFull, List.append_nil]

/-- Fill a new table, one entry after the other. -/
def fill (as : List α) (env : Environment) : Table α × Environment :=
  as.foldl (fun s a => s.1.push entry a s.2) ({}, env)

/-- A table that is filled entry by entry has the room for so many entries. -/
theorem fill_eq (as : List α) (env : Environment) : fill entry as env =
    (⟨as.toArray, roomFor as.length⟩, Effect.replay (course entry as.length) env) := by
  induction as using List.reverseRecOn with
  | nil => rfl
  | append_singleton as a ih =>
      rw [fill, List.foldl_append, ← fill, ih]
      simp only [List.foldl_cons, List.foldl_nil, push_eq]
      rw [List.length_append, List.length_singleton, course_succ, Effect.replay_append, roomFor_succ]
      simp [size]

/-- The blocks of the doublings are obtained from the smallest to the largest. -/
theorem obtained_climb (k : Nat) :
    Effect.obtained (climb entry k) = (List.range (k + 1)).map (blockAfter entry) := by
  induction k with
  | zero => rfl
  | succ k ih =>
      rw [climb, Effect.obtained, List.filterMap_append, ← Effect.obtained, ih,
        List.range_succ (n := k + 1), List.map_append]
      rfl

/-- All blocks but the last one are given back on the way. -/
theorem returned_climb (k : Nat) :
    Effect.returned (climb entry k) = (List.range k).map (blockAfter entry) := by
  induction k with
  | zero => rfl
  | succ k ih =>
      rw [climb, Effect.returned, List.filterMap_append, ← Effect.returned, ih,
        List.range_succ, List.map_append]
      rfl

/-- The number of blocks that a table goes through until it has so many entries. -/
def blockCount (n : Nat) : Nat := if n = 0 then 0 else doublings n + 1

/-- A further entry takes a further block if the table is full. -/
theorem blockCount_succ (n : Nat) :
    blockCount (n + 1) = blockCount n + if n = roomFor n then 1 else 0 := by
  rw [blockCount, if_neg (Nat.succ_ne_zero n), blockCount]
  by_cases h : n = 0
  · subst h
    rfl
  · rw [if_neg h]
    split
    · next hFull => rw [doublings_succ_of_full h hFull]
    · next hRoom => rw [doublings_succ_of_room h hRoom]

/-- A table with so many entries has had these blocks, from the smallest to the largest. -/
theorem obtained_course (n : Nat) :
    Effect.obtained (course entry n) = (List.range (blockCount n)).map (blockAfter entry) := by
  rw [course, blockCount]
  split
  · rfl
  · exact obtained_climb entry (doublings n)

/-- All blocks have been given back but the last one. -/
theorem returned_course (n : Nat) :
    Effect.returned (course entry n) = (List.range (blockCount n - 1)).map (blockAfter entry) := by
  rw [course, blockCount]
  split
  · rfl
  · exact returned_climb entry (doublings n)

variable {entry}

/-- After so many doublings. The peak was reached while there were two blocks. -/
theorem ledger_climb (hSize : entry.size ≠ 0) (k : Nat) :
    (climb entry k).foldl Effect.charge {} =
      { allocations := k + 1
        deallocations := k
        liveBytes := 4 * 2 ^ k * entry.size
        peakBytes := (4 * 2 ^ k + if k = 0 then 0 else 4 * 2 ^ k / 2) * entry.size } := by
  have hBlock : ∀ k, (blockAfter entry k).size = 4 * 2 ^ k * entry.size := fun k =>
    Nat.mul_comm ..
  have hSome : ∀ k, (blockAfter entry k).size ≠ 0 := fun k => by
    rw [hBlock]
    exact Nat.mul_ne_zero (Nat.mul_ne_zero (by decide) (Nat.pow_pos Nat.two_pos).ne') hSize
  induction k with
  | zero =>
      rw [climb, List.foldl_cons, List.foldl_nil, Effect.charge, if_neg (hSome 0), hBlock]
      simp [Ledger.grant]
  | succ k ih =>
      have hDouble : 4 * 2 ^ (k + 1) = 2 * (4 * 2 ^ k) := by
        rw [Nat.pow_succ]
        omega
      rw [climb, List.foldl_append, ih]
      simp only [List.foldl_cons, List.foldl_nil, Effect.charge, if_neg (hSome _)]
      rw [Ledger.grant, Ledger.giveBack, hBlock, hBlock, hDouble, if_neg (Nat.succ_ne_zero k)]
      generalize 4 * 2 ^ k = capacity
      have hLive : capacity * entry.size + 2 * capacity * entry.size - capacity * entry.size =
          2 * capacity * entry.size := Nat.add_sub_cancel_left ..
      have hLe : (if k = 0 then 0 else capacity / 2) ≤ 2 * capacity := by
        split <;> omega
      have hPeak : max ((capacity + if k = 0 then 0 else capacity / 2) * entry.size)
          (capacity * entry.size + 2 * capacity * entry.size) =
          (2 * capacity + 2 * capacity / 2) * entry.size := by
        rw [Nat.mul_div_cancel_left capacity Nat.two_pos, Nat.add_comm (2 * capacity),
          ← Nat.add_mul]
        exact Nat.max_eq_right (Nat.mul_le_mul_right _ (Nat.add_le_add_left hLe _))
      simp only [hLive, hPeak]

/-- What a counting layer says when nothing but a table with so many entries is in it. -/
structure Accounts (entry : Layout) (n : Nat) (l : Ledger) : Prop where
  allocations_eq : l.allocations = blockCount n
  deallocations_eq : l.deallocations = blockCount n - 1
  liveBytes_eq : l.liveBytes = roomFor n * entry.size
  peakBytes_eq :
    l.peakBytes = (roomFor n + if doublings n = 0 then 0 else roomFor n / 2) * entry.size

/-- What a table costs on the way to so many entries. -/
theorem accounts_course (hSize : entry.size ≠ 0) (n : Nat) :
    Accounts entry n ((course entry n).foldl Effect.charge {}) := by
  by_cases h : n = 0
  · subst h
    constructor <;> simp [course, blockCount, roomFor, doublings]
  · rw [course, if_neg h, ledger_climb hSize, ← roomFor_eq h]
    constructor <;> simp [blockCount, h]

end Table
end TaskMemory

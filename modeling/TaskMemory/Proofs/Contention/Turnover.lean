import Mathlib.Algebra.BigOperators.Intervals
import Mathlib.Algebra.Order.BigOperators.Group.Finset
import TaskMemory.Contention.Report
import TaskMemory.Proofs.Contention.Merging
import TaskMemory.Proofs.Contention.Stock

/-!
What the churn workload comes to when the threads run one after the other. After so many operations
a thread holds as many tasks, up to its window and to the room in the pool. From then on it gives a
task up for each one that it constructs: before it tries again if the pool is full, and after it if
the window is exceeded.
-/
namespace TaskMemory

/-- What a tally has come to, as numbers without a bound. -/
structure Tally.Counts (t : Tally) (ops retries total : Nat) : Prop where
  ops_eq : t.ops.toNat = ops
  retries_eq : t.retries.toNat = retries
  total_eq : t.total.toNat = total
  slow_le : t.slow.toNat ≤ ops

namespace Tally.Counts

variable {t t' : Tally} {ops ops' retries retries' total total' : Nat} {time : UInt64}

/-- The counts of two tallies are added when they are merged, if none of the sums is too large. -/
theorem merge (counts : t.Counts ops retries total) (counts' : t'.Counts ops' retries' total')
    (hOps : ops + ops' < 2 ^ 64) (hRetries : retries + retries' < 2 ^ 64)
    (hTotal : total + total' < 2 ^ 64) :
    ∃ sum, t.merge t' = .ok sum ∧
      sum.Counts (ops + ops') (retries + retries') (total + total') := by
  obtain ⟨rfl, rfl, rfl, hSlow⟩ := counts
  obtain ⟨rfl, rfl, rfl, hSlow'⟩ := counts'
  have hSlowAdd : t.slow.toNat + t'.slow.toNat ≤ t.ops.toNat + t'.ops.toNat :=
    Nat.add_le_add hSlow hSlow'
  have fit : (t.figures + t'.figures).Fit :=
    ⟨hOps, hTotal, Nat.max_lt.mpr ⟨t.longest.toNat_lt, t'.longest.toNat_lt⟩,
      hSlowAdd.trans_lt hOps, hRetries⟩
  obtain ⟨sum, hSum, hFigures⟩ := Tally.exists_of_fit fit
  have hSlowEq : sum.slow.toNat = t.slow.toNat + t'.slow.toNat := congrArg Figures.slow hFigures
  exact ⟨sum, (t.merge_eq t').trans hSum, congrArg Figures.ops hFigures,
    congrArg Figures.retries hFigures, congrArg Figures.total hFigures, hSlowEq.trans_le hSlowAdd⟩

/-- An operation counts as one, with its time. -/
theorem record (counts : t.Counts ops retries total) (hOps : ops + 1 < 2 ^ 64)
    (hTotal : total + time.toNat < 2 ^ 64) :
    ∃ t', t.record time = .ok t' ∧ t'.Counts (ops + 1) retries (total + time.toNat) := by
  have hSlow : (if slowAfter < time then (1 : UInt64) else 0).toNat ≤ 1 := by split <;> decide
  have hRetries : retries < 2 ^ 64 := counts.retries_eq ▸ t.retries.toNat_lt
  have one : (Tally.Entry.operation time).tally.Counts 1 0 time.toNat := ⟨rfl, rfl, rfl, hSlow⟩
  obtain ⟨t', hMerge, counts'⟩ := counts.merge one hOps hRetries hTotal
  exact ⟨t', (t.enter_eq_merge (.operation time)).trans hMerge, counts'⟩

/-- A retry is counted, and nothing else. -/
theorem retry (counts : t.Counts ops retries total) (hRetries : retries + 1 < 2 ^ 64) :
    ∃ t', t.retry = .ok t' ∧ t'.Counts ops (retries + 1) total := by
  have hOps : ops < 2 ^ 64 := counts.ops_eq ▸ t.ops.toNat_lt
  have hTotal : total < 2 ^ 64 := counts.total_eq ▸ t.total.toNat_lt
  have one : (Tally.Entry.retries 1).tally.Counts 0 1 0 := ⟨rfl, rfl, rfl, Nat.le_refl 0⟩
  obtain ⟨t', hMerge, counts'⟩ := counts.merge one hOps hRetries hTotal
  exact ⟨t', (t.enter_eq_merge (.retries 1)).trans hMerge, counts'⟩

end Tally.Counts

namespace Churn

variable {o : ChurnOptions} {latency : UInt64 → UInt64} {peak ops retries total i : Nat} {w : Site}

/-- What is left of the handles when one of them is removed, up to their order. -/
theorem perm_swapRemove {held : Array Handle} (hLt : i < held.size) :
    held.toList.Perm (held[i] :: (swapRemove held i).toList) := by
  obtain ⟨held⟩ := held
  obtain rfl | ⟨front, last, rfl⟩ := held.eq_nil_or_concat
  · exact absurd hLt (Nat.not_lt_zero i)
  · have hSwap : (swapRemove ⟨front.concat last⟩ i).toList =
        ((front.concat last).set i last).dropLast := by
      simp [swapRemove]
    rw [hSwap]
    simp only [List.getElem_toArray, List.concat_eq_append, List.size_toArray, List.length_append,
      List.length_singleton] at hLt ⊢
    obtain hFront | rfl := Nat.lt_succ_iff_lt_or_eq.mp hLt
    · rw [List.getElem_append_left hFront, List.set_append_left _ _ hFront, List.dropLast_concat]
      have hOther : front.Perm (front[i] :: front.eraseIdx i) :=
        (List.getElem_cons_eraseIdx_perm hFront).symm
      have hMoved : (last :: front.eraseIdx i).Perm (front.set i last) :=
        (List.set_perm_cons_eraseIdx hFront last).symm
      calc (front ++ [last]).Perm (last :: front) := List.perm_append_singleton last front
        List.Perm _ (last :: front[i] :: front.eraseIdx i) := hOther.cons last
        List.Perm _ (front[i] :: last :: front.eraseIdx i) := .swap ..
        List.Perm _ (front[i] :: front.set i last) := hMoved.cons front[i]
    · simp [List.perm_append_singleton]

/-- The handle that a thread gives up, and what it holds after that. -/
theorem exists_back {held : Array Handle} (hPos : 0 < held.size) :
    ∃ last, held.back? = some last ∧ held.toList.Perm (last :: held.pop.toList) := by
  obtain ⟨held⟩ := held
  obtain rfl | ⟨front, last, rfl⟩ := held.eq_nil_or_concat
  · exact absurd hPos (Nat.lt_irrefl 0)
  · exact ⟨last, by simp, by simp [List.perm_append_singleton]⟩

theorem obtain_of_ok {task : Task} {h : Handle} {u : Site} (attempts : Nat)
    (hInsert : w.insert task = (.ok h, u)) :
    Churn.obtain task (attempts + 1) w = .ok (h, u) := by
  rw [Churn.obtain, hInsert]

/-- A thread that finds the pool full goes on without the task that it constructed last. -/
theorem obtain_of_refusal {task : Task} {cause : PoolError} {u x : Site} {tally : Tally}
    {h : Handle} (attempts : Nat) (hInsert : w.insert task = (.error (.noSlot cause), u))
    (hRetry : u.state.tally.retry = .ok tally) (hLast : u.state.held.back? = some h)
    (hDiscard : discard h { u with state := { tally, held := u.state.held.pop } } = .ok x) :
    Churn.obtain task (attempts + 1) w = Churn.obtain task attempts x := by
  simp only [Churn.obtain, hInsert, hRetry, bind, Except.bind, hLast, hDiscard]

/-- A construction comes to a slot at the first attempt, or it gives up a task before the second
one. -/
theorem Holds.obtain (holds : Holds o peak w.state.held.toList w.pool w.env)
    (counts : w.state.tally.Counts ops retries total) (task : Task) (hPos : 0 < room o)
    (hLe : w.state.held.size ≤ room o) (hRetries : retries + 1 < 2 ^ 64) :
    ∃ h u, Churn.obtain task (w.state.held.size + 1) w = .ok (h, u) ∧
      Holds o (max peak (min (w.state.held.size + 1) (room o))) (u.state.held.push h).toList u.pool
        u.env ∧
      u.get? h = .ok (some task) ∧ u.state.held.size = min w.state.held.size (room o - 1) ∧
      u.state.tally.Counts ops (retries + if w.state.held.size = room o then 1 else 0) total := by
  obtain hFull | hRoom := Nat.eq_or_lt_of_le hLe
  · obtain ⟨env, hInsert, waiting⟩ := holds.insert_of_full task hFull
    obtain ⟨tally, hRetry, retried⟩ := counts.retry hRetries
    obtain ⟨last, hLast, hPerm⟩ := exists_back (hPos.trans_eq hFull.symm)
    have hSize : w.state.held.pop.size + 1 = room o := by
      rw [Array.size_pop, hFull, Nat.sub_add_cancel hPos]
    let idle : Worker := { tally, held := w.state.held.pop }
    obtain ⟨pool, hDiscard, given⟩ :=
      Holds.discard (w := { w with env, state := idle }) waiting hPerm
    obtain ⟨h, pool, env, hAgain, after, hGet⟩ :=
      Holds.insert (w := { w with pool, env, state := idle }) given task
        (Nat.lt_of_succ_le hSize.le)
    refine ⟨h, ⟨pool, env, idle⟩, ?_, ?_, hGet, ?_, ?_⟩
    · rw [obtain_of_refusal _ hInsert hRetry hLast hDiscard, hFull, ← hSize]
      exact obtain_of_ok _ hAgain
    · rw [Array.toList_push, hFull, Nat.min_eq_right (Nat.le_succ _), ← hSize]
      exact after
    · change w.state.held.pop.size = _
      omega
    · rwa [if_pos hFull]
  · obtain ⟨h, pool, env, hInsert, after, hGet⟩ := holds.insert task hRoom
    refine ⟨h, { w with pool, env }, ?_, ?_, hGet, ?_, ?_⟩
    · exact obtain_of_ok _ hInsert
    · rw [Array.toList_push, Nat.min_eq_left hRoom]
      exact after
    · change w.state.held.size = _
      omega
    · rw [if_neg (Nat.ne_of_lt hRoom)]
      exact counts

/-- A thread that exceeds its window gives a task up. -/
theorem Holds.trim (holds : Holds o peak w.state.held.toList w.pool w.env) (window i : Nat)
    (hLe : w.state.held.size ≤ window + 1) :
    ∃ u, Churn.trim window i w = .ok u ∧ Holds o peak u.state.held.toList u.pool u.env ∧
      u.state.held.size = min w.state.held.size window ∧ u.state.tally = w.state.tally := by
  rw [Churn.trim]
  split
  · next hLt =>
      have hIndex : i % w.state.held.size < w.state.held.size :=
        Nat.mod_lt _ (Nat.zero_lt_of_lt hLt)
      have hPerm := perm_swapRemove hIndex
      have hLength := hPerm.length_eq
      rw [Array.length_toList, List.length_cons, Array.length_toList] at hLength
      obtain ⟨pool, hDiscard, given⟩ := Holds.discard (w := { w with
        state := { w.state with held := swapRemove w.state.held (i % w.state.held.size) } })
        holds hPerm
      dsimp only
      rw [Array.getElem?_eq_getElem hIndex]
      refine ⟨_, hDiscard, given, ?_, rfl⟩
      change (swapRemove _ _).size = _
      omega
  · next hFits => exact ⟨w, rfl, holds, by omega, rfl⟩

/-- How many tasks a thread holds after so many operations. -/
def kept (o : ChurnOptions) (i : Nat) : Nat := min i (min o.window (room o))

/-- How many tasks a thread has in the pool at the same time during so many operations. -/
def reach (o : ChurnOptions) (i : Nat) : Nat := min i (min (o.window + 1) (room o))

/-- How often a thread tries again during so many operations. -/
def repeats (o : ChurnOptions) (i : Nat) : Nat := if o.window < room o then 0 else i - room o

/-- How long the constructions of tasks take, from this number on. -/
def span (latency : UInt64 → UInt64) (first n : Nat) : Nat :=
  ∑ k ∈ Finset.range n, (latency (first + k).toUInt64).toNat

theorem span_mono (latency : UInt64 → UInt64) (first : Nat) {n m : Nat} (h : n ≤ m) :
    span latency first n ≤ span latency first m :=
  Finset.sum_le_sum_of_subset (Finset.range_mono h)

/-- A thread after so many operations, in a pool that had the slabs for so many tasks before. -/
structure Working (o : ChurnOptions) (latency : UInt64 → UInt64) (first past i : Nat) (w : Site) :
    Prop where
  holds : Holds o (max past (reach o i)) w.state.held.toList w.pool w.env
  size : w.state.held.size = kept o i
  counts : w.state.tally.Counts i (repeats o i) (span latency first i)

theorem max_reach (o : ChurnOptions) (i : Nat) :
    max (reach o i) (min (kept o i + 1) (room o)) = reach o (i + 1) := by
  simp only [reach, kept]
  omega

/-- An operation is repeated if it finds the pool full, and it is repeated once. -/
theorem repeats_succ (o : ChurnOptions) (i : Nat) :
    repeats o i + (if kept o i = room o then 1 else 0) = repeats o (i + 1) := by
  have hKept : kept o i = min i (min o.window (room o)) := rfl
  rw [repeats, repeats]
  by_cases hWindow : o.window < room o
  · rw [if_pos hWindow, if_pos hWindow, if_neg (by omega)]
  · rw [if_neg hWindow, if_neg hWindow]
    by_cases hFull : room o ≤ i
    · rw [if_pos (by omega)]
      omega
    · rw [if_neg (by omega)]
      omega

/-- An operation whose task is found again goes on to trim the window. -/
theorem operate_eq {window : Nat} {id : UInt64} {h : Handle} {u : Site} {tally : Tally}
    (hObtain : Churn.obtain ⟨id⟩ (w.state.held.size + 1) w = .ok (h, u))
    (hRecord : u.state.tally.record (latency id) = .ok tally)
    (hGet : u.get? h = .ok (some ⟨id⟩)) :
    operate latency window id i w =
      trim window i { u with state := { tally, held := u.state.held.push h } } := by
  simp only [operate, hObtain, hRecord, hGet, bind, Except.bind, ↓reduceIte]

/-- Every operation succeeds. -/
theorem Working.operate {first past : Nat} (working : Working o latency first past i w)
    (hPos : 0 < room o) (hOps : i + 1 < 2 ^ 64) (hTime : span latency first (i + 1) < 2 ^ 64) :
    ∃ u, Churn.operate latency o.window (first + i).toUInt64 i w = .ok u ∧
      Working o latency first past (i + 1) u := by
  have hSize := working.size
  have hRepeats : repeats o i + 1 < 2 ^ 64 := by
    rw [repeats]
    split <;> omega
  have hSpan : span latency first (i + 1) =
      span latency first i + (latency (first + i).toUInt64).toNat := Finset.sum_range_succ _ i
  have hLe : w.state.held.size ≤ room o := by
    rw [hSize, kept]
    omega
  obtain ⟨h, u, hObtain, after, hGet, hHeld, counts⟩ :=
    working.holds.obtain working.counts ⟨(first + i).toUInt64⟩ hPos hLe hRepeats
  obtain ⟨tally, hRecord, recorded⟩ := counts.record hOps (hSpan ▸ hTime)
  obtain ⟨x, hTrim, trimmed, hTrimmed, hTally⟩ :=
    Holds.trim (w := { u with state := { tally, held := u.state.held.push h } }) after o.window i
      (by
        rw [Array.size_push, hHeld, hSize, kept]
        omega)
  refine ⟨x, (operate_eq hObtain hRecord hGet).trans hTrim, ?_, ?_, ?_⟩
  · rwa [hSize, Nat.max_assoc, max_reach] at trimmed
  · rw [hTrimmed, Array.size_push, hHeld, hSize, kept, kept]
    omega
  · rwa [hTally, hSpan, ← repeats_succ, ← hSize]

/-- A thread comes to the end of its operations, by induction on those that remain. -/
theorem Working.operations {first past : Nat} (working : Working o latency first past i w)
    (hPos : 0 < room o) (remaining : Nat) (hOps : i + remaining < 2 ^ 64)
    (hTime : span latency first (i + remaining) < 2 ^ 64) :
    ∃ u, Churn.operations latency o.window first remaining i w = .ok u ∧
      Working o latency first past (i + remaining) u := by
  induction remaining generalizing i w with
  | zero => exact ⟨w, rfl, working⟩
  | succ remaining ih =>
      rw [← Nat.add_assoc, Nat.add_right_comm] at hOps hTime
      have hFirst := span_mono latency first (Nat.le_add_right (i + 1) remaining)
      obtain ⟨u, hOperate, next⟩ :=
        working.operate hPos (Nat.lt_of_le_of_lt (Nat.le_add_right ..) hOps)
          (hFirst.trans_lt hTime)
      obtain ⟨x, hRest, last⟩ := ih next hOps hTime
      refine ⟨x, ?_, ?_⟩
      · rw [Churn.operations, hOperate]
        exact hRest
      · rwa [← Nat.add_assoc, Nat.add_right_comm]

/-- In the end a thread gives up all that it holds. -/
theorem Holds.discardAll {handles : List Handle} (holds : Holds o peak handles w.pool w.env) :
    ∃ u, handles.foldlM (fun w h => Churn.discard h w) w = .ok u ∧
      Holds o peak [] u.pool u.env ∧ u.state = w.state := by
  induction handles generalizing w with
  | nil => exact ⟨w, rfl, holds, rfl⟩
  | cons h rest ih =>
      obtain ⟨pool, hDiscard, given⟩ := holds.discard (List.Perm.refl _)
      obtain ⟨u, hRest, last, hState⟩ := ih (w := { w with pool }) given
      refine ⟨u, ?_, last, hState⟩
      rw [List.foldlM_cons, hDiscard]
      exact hRest

/-- A thread that finds a pool without tasks leaves one. -/
theorem Holds.work {thread past : Nat} {pool : Pool Task} {env : Environment}
    (holds : Holds o past [] pool env) (hPos : 0 < room o) (hWindow : o.window ≤ maxWindow)
    (hOps : o.opsPerThread < 2 ^ 64)
    (hTime : span latency (thread * o.opsPerThread) o.opsPerThread < 2 ^ 64) :
    ∃ u, Churn.work o latency thread pool env = .ok u ∧
      Holds o (max past (reach o o.opsPerThread)) [] u.pool u.env ∧
      u.state.tally.Counts o.opsPerThread (repeats o o.opsPerThread)
        (span latency (thread * o.opsPerThread) o.opsPerThread) := by
  have begun : Working o latency (thread * o.opsPerThread) past 0 ⟨pool, env, {}⟩ := by
    refine ⟨?_, ?_, rfl, ?_, rfl, Nat.le_refl 0⟩
    · rw [reach, Nat.zero_min, Nat.max_zero]
      exact holds
    · rw [kept, Nat.zero_min]
      rfl
    · rw [repeats]
      split
      · rfl
      · exact (Nat.zero_sub _).symm
  obtain ⟨u, hOperations, done⟩ := begun.operations hPos o.opsPerThread
    (by rwa [Nat.zero_add]) (by rwa [Nat.zero_add])
  rw [Nat.zero_add] at done
  obtain ⟨x, hDiscard, last, hState⟩ := done.holds.discardAll
  refine ⟨x, ?_, last, hState ▸ done.counts⟩
  rw [Churn.work, if_neg (Nat.not_lt.mpr hWindow)]
  simpa only [hOperations, bind, Except.bind] using hDiscard

theorem span_add (latency : UInt64 → UInt64) (n m : Nat) :
    span latency 0 (n + m) = span latency 0 n + span latency n m := by
  simp only [span, Nat.zero_add]
  exact Finset.sum_range_add ..

/-- After so many threads, none of which broke off. -/
structure Worked (o : ChurnOptions) (latency : UInt64 → UInt64) (threads : Nat) (tally : Tally)
    (pool : Pool Task) (env : Environment) : Prop where
  holds : Holds o (if threads = 0 then 0 else reach o o.opsPerThread) [] pool env
  counts : tally.Counts (threads * o.opsPerThread) (threads * repeats o o.opsPerThread)
    (span latency 0 (threads * o.opsPerThread))

theorem repeats_le (o : ChurnOptions) (i : Nat) : repeats o i ≤ i := by
  rw [repeats]
  split <;> omega

variable {thread : Nat} {tally : Tally} {pool : Pool Task} {env : Environment}

/-- One thread more. -/
theorem Worked.work (worked : Worked o latency thread tally pool env) (hPos : 0 < room o)
    (hWindow : o.window ≤ maxWindow) (hOps : (thread + 1) * o.opsPerThread < 2 ^ 64)
    (hTime : span latency 0 ((thread + 1) * o.opsPerThread) < 2 ^ 64) :
    ∃ u t, Churn.work o latency thread pool env = .ok u ∧ tally.merge u.state.tally = .ok t ∧
      Worked o latency (thread + 1) t u.pool u.env := by
  rw [Nat.succ_mul] at hOps hTime
  rw [span_add] at hTime
  have hRepeats := Nat.add_le_add (Nat.mul_le_mul_left thread (repeats_le o o.opsPerThread))
    (repeats_le o o.opsPerThread)
  have hOwn : span latency (thread * o.opsPerThread) o.opsPerThread < 2 ^ 64 := by omega
  obtain ⟨u, hWork, holds, counts⟩ := worked.holds.work hPos hWindow (by omega) hOwn
  obtain ⟨t, hMerge, merged⟩ := worked.counts.merge counts hOps (by omega) hTime
  refine ⟨u, t, hWork, hMerge, ?_, ?_⟩
  · rw [if_neg (Nat.succ_ne_zero thread)]
    have hPast : max (if thread = 0 then 0 else reach o o.opsPerThread) (reach o o.opsPerThread) =
        reach o o.opsPerThread := by
      split
      · exact Nat.zero_max _
      · exact Nat.max_self _
    rwa [hPast] at holds
  · rwa [Nat.succ_mul, Nat.succ_mul, span_add]

/-- All threads come to their end, by induction on those that remain. -/
theorem Worked.workAll (worked : Worked o latency thread tally pool env) (hPos : 0 < room o)
    (hWindow : o.window ≤ maxWindow) (remaining : Nat)
    (hOps : (thread + remaining) * o.opsPerThread < 2 ^ 64)
    (hTime : span latency 0 ((thread + remaining) * o.opsPerThread) < 2 ^ 64) :
    ∃ t p e, Churn.workAll o latency remaining thread tally pool env = .ok (t, p, e) ∧
      Worked o latency (thread + remaining) t p e := by
  induction remaining generalizing thread tally pool env with
  | zero => exact ⟨tally, pool, env, rfl, worked⟩
  | succ remaining ih =>
      have hNext : thread + (remaining + 1) = thread + 1 + remaining := by omega
      rw [hNext] at hOps hTime ⊢
      have hFirst : (thread + 1) * o.opsPerThread ≤ (thread + 1 + remaining) * o.opsPerThread :=
        Nat.mul_le_mul_right _ (Nat.le_add_right ..)
      obtain ⟨u, t, hWork, hMerge, next⟩ := worked.work hPos hWindow (hFirst.trans_lt hOps)
        ((span_mono latency 0 hFirst).trans_lt hTime)
      obtain ⟨t', p, e, hRest, last⟩ := ih next hOps hTime
      refine ⟨t', p, e, ?_, last⟩
      simpa only [Churn.workAll, hWork, hMerge, bind, Except.bind] using hRest

section

variable {p : Pool Task} (h : Pool.create ⟨o.slabCapacity, .bounded o.maxSlabs⟩ = .ok p)

include h

theorem run_eq
    (hWorked : workAll o latency o.threads 0 {} p
      { resource := (Resource.ofPolicy .unlimited).counted } = .ok (tally, pool, env)) :
    run o latency =
      .ok ⟨tally, pool.slabCount, (pool.dispose env).2.ledger?.getD {}⟩ := by
  simp only [run, h, hWorked, bind, Except.bind, pure, Except.pure]

theorem room_pos : 0 < room o := by
  obtain ⟨codec, hMake, -⟩ := Pool.create_eq h
  obtain ⟨hCapacity, -, ⟨hLimit, -⟩ | ⟨slabs, hLimit, hSlabs, -⟩⟩ := Codec.make_cases hMake
  · cases hLimit
  · cases hLimit
    exact Nat.mul_pos (UInt32.pos_iff_ne_zero.mpr hCapacity) (UInt32.pos_iff_ne_zero.mpr hSlabs)

/-- A pool that has just been created is one in which no thread has worked. -/
theorem worked_start (latency : UInt64 → UInt64) :
    Worked o latency 0 {} p { resource := (Resource.ofPolicy .unlimited).counted } := by
  have fits := Pool.Moment.fits_initial h
  have hBlocks : p.blocks = 0 := Pool.blocks_initial h
  obtain ⟨codec, hMake, rfl⟩ := Pool.create_eq h
  obtain ⟨_, _, -, -, hSlabs, -⟩ := Codec.make_layout hMake
  refine ⟨⟨[], ⟨fits, ?_, hSlabs, ?_, Nat.zero_le _, ?_⟩, .nil⟩, ?_⟩
  · exact congrArg UInt32.toNat (Codec.slabCapacity_eq hMake)
  · exact (zero_ceilDiv _).symm
  · rw [hBlocks]
    exact ⟨rfl, _, _, rfl, rfl, rfl⟩
  · simp only [Nat.zero_mul]
    exact ⟨rfl, rfl, rfl, Nat.le_refl 0⟩

end

/-- The account of memory out of which nothing is any more. -/
theorem settled_ledger {env : Environment} (counts : Effect.Counts env 0) :
    ∃ l, env.ledger? = some l ∧ l.allocations = l.deallocations ∧ l.liveBytes = 0 := by
  obtain ⟨l, inner, hResource, hBlocks, hBytes⟩ := counts.counting
  exact ⟨l, by rw [Environment.ledger?, hResource]; rfl, hBlocks, hBytes⟩

end Churn

/-- A report on memory out of which nothing is any more has no line about a leak. -/
theorem ChurnReport.lines_of_settled {r : ChurnReport}
    (hOps : r.options.threads * r.options.opsPerThread < 2 ^ 64)
    (hBytes : r.outcome.ledger.liveBytes = 0) :
    ∃ lines, r.lines = .ok lines ∧ leakLine r.outcome.ledger.liveBytes = [] ∧
      lines.length = 15 := by
  have hProduct : multiplyChecked r.options.threads r.options.opsPerThread =
      .ok (r.options.threads * r.options.opsPerThread) := if_pos hOps
  have hLeak : leakLine r.outcome.ledger.liveBytes = [] := if_pos hBytes
  rw [lines, hProduct, hLeak]
  exact ⟨_, rfl, rfl, rfl⟩

/-- What the workload comes to. -/
structure ChurnOptions.Reports (o : ChurnOptions) (outcome : ChurnOutcome) : Prop where
  ops : outcome.tally.ops.toNat = o.threads * o.opsPerThread
  /-- Once the pool is full, a thread tries again for each construction, unless its window is
  smaller than the pool. -/
  retries : outcome.tally.retries.toNat =
    if o.window < o.slabCapacity.toNat * o.maxSlabs.toNat then 0
    else o.threads * (o.opsPerThread - o.slabCapacity.toNat * o.maxSlabs.toNat)
  /-- There are slabs for the tasks that a thread has at the same time. -/
  slabs : outcome.slabs =
    min o.opsPerThread (min (o.window + 1) (o.slabCapacity.toNat * o.maxSlabs.toNat)) ⌈/⌉
      o.slabCapacity.toNat
  balanced : outcome.ledger.allocations = outcome.ledger.deallocations
  settled : outcome.ledger.liveBytes = 0
  /-- The report is printed without the line about a leak. -/
  printed : ∀ elapsed, ∃ lines, ChurnReport.lines ⟨o, elapsed, outcome⟩ = .ok lines ∧
    ChurnReport.leakLine outcome.ledger.liveBytes = [] ∧ lines.length = 15

/-- The workload comes to its end on every pool that can be created, if the window is one that can
be set aside and the operations and their times can be counted. -/
theorem Churn.run_completes (o : ChurnOptions) (latency : UInt64 → UInt64) {p : Pool Task}
    (h : Pool.create ⟨o.slabCapacity, .bounded o.maxSlabs⟩ = .ok p) (hThreads : 1 ≤ o.threads)
    (hOps : o.threads * o.opsPerThread < 2 ^ 64) (hWindow : o.window ≤ maxWindow)
    (hTime : ∑ k ∈ Finset.range (o.threads * o.opsPerThread), (latency k.toUInt64).toNat < 2 ^ 64) :
    ∃ outcome, Churn.run o latency = .ok outcome ∧ o.Reports outcome := by
  have hSpan : span latency 0 (o.threads * o.opsPerThread) < 2 ^ 64 := by
    simpa only [span, Nat.zero_add] using hTime
  obtain ⟨tally, pool, env, hWorked, worked⟩ := (worked_start h latency).workAll (room_pos h)
    hWindow o.threads (by rwa [Nat.zero_add]) (by rwa [Nat.zero_add])
  rw [Nat.zero_add] at worked
  obtain ⟨l, hLedger, hBlocks, hBytes⟩ := settled_ledger worked.holds.dispose
  have hRun := run_eq h hWorked
  rw [hLedger, Option.getD_some] at hRun
  refine ⟨_, hRun, ?_⟩
  constructor
  case ops => exact worked.counts.ops_eq
  case retries =>
    rw [worked.counts.retries_eq, repeats, mul_ite, Nat.mul_zero]
    rfl
  case slabs =>
    have hSlabs := worked.holds.slabs
    rwa [if_neg (Nat.one_le_iff_ne_zero.mp hThreads)] at hSlabs
  case balanced => exact hBlocks
  case settled => exact hBytes
  case printed => exact fun elapsed => ChurnReport.lines_of_settled hOps hBytes

/-- Two threads that hold on to all that they construct meet with a full pool at their fifth
operation. -/
theorem Churn.run_completes_full :
    ∃ outcome, Churn.run ⟨2, 5, 2, 2, 9⟩ (fun _ => 7) = .ok outcome ∧
      outcome.tally.ops.toNat = 10 ∧ outcome.tally.retries.toNat = 2 ∧ outcome.slabs = 2 ∧
      outcome.ledger.allocations = outcome.ledger.deallocations ∧
      outcome.ledger.liveBytes = 0 := by
  obtain ⟨outcome, hRun, reports⟩ := Churn.run_completes ⟨2, 5, 2, 2, 9⟩ (fun _ => 7)
    (p := { codec := ⟨1, 2, 1, 2⟩, limit := .bounded 2 }) rfl (by decide) (by decide) (by decide)
    (by decide)
  exact ⟨outcome, hRun, reports.ops, reports.retries, reports.slabs, reports.balanced,
    reports.settled⟩

/-- Where one of the conditions is not met, the workload breaks off although the pool can be created
and every operation has a number: a thread cannot set a larger window aside, the sum of the
operations is not a word, and neither is the sum of the times. -/
theorem Churn.run_breaks_off :
    (∃ p : Pool Task, Pool.create ⟨1, .bounded 1⟩ = .ok p) ∧
    Churn.run ⟨1, 1, 1, 1, 4611686018427387904⟩ (fun _ => 0) = .error .threadFailed ∧
    ((∀ thread < 2, ∀ i < 2 ^ 63, thread * 2 ^ 63 + i < 2 ^ 64) ∧
      ∀ latency outcome, Churn.run ⟨2, 2 ^ 63, 1, 1, 0⟩ latency = .ok outcome →
        outcome.tally.ops.toNat ≠ 2 * 2 ^ 63) ∧
    Churn.run ⟨1, 2, 1, 1, 0⟩ (fun _ => 9223372036854775808) = .error .threadFailed := by
  refine ⟨⟨_, rfl⟩, rfl, ⟨by omega, ?_⟩, ?_⟩
  · intro latency outcome _
    exact Nat.ne_of_lt outcome.tally.ops.toNat_lt
  · with_unfolding_all rfl

end TaskMemory

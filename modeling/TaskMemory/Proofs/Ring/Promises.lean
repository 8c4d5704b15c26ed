import TaskMemory.Proofs.Ring.Queries

/-!
What the answer to a query is worth to the thread that asks. The producer's own cursor stands still
while the producer asks, and the consumer's cursor only moves in its favour, so the room that it is
told is room that nobody takes away. The same holds for the consumer and the elements. Neither of
the two ever waits for the other one, so the pushes and pulls that are promised also come to an end.
-/
namespace TaskMemory.Ring

variable {α : Type}

def Turn.isProducer : Turn α → Bool
  | .producer _ => true
  | .consumer => false

/-- Whether a push was accepted, if it is one that has ended. -/
def Outcome.pushed? : Outcome α → Option Bool
  | .accepted .. => some true
  | .refused => some false
  | .pulled _ | .missed => none

/-- What a pull answers, if it is one that has ended. -/
def Outcome.answered? : Outcome α → Option (Option α)
  | .pulled a => some (some a)
  | .missed => some none
  | .accepted .. | .refused => none

def pushes (log : List (Outcome α)) : List Bool := log.filterMap Outcome.pushed?

def pulls (log : List (Outcome α)) : List (Option α) := log.filterMap Outcome.answered?

/-- The first pushes, up to this number, succeed. -/
def Accepts (n : Nat) (log : List (Outcome α)) : Prop := ∀ yes ∈ (pushes log).take n, yes = true

/-- The first pulls, up to this number, answer with an element. -/
def Yields (n : Nat) (log : List (Outcome α)) : Prop :=
  ∀ answer ∈ (pulls log).take n, answer.isSome = true

namespace Exchange

variable [Element α] {capacity : UInt32} {x : Exchange α} {turn : Turn α}
  {log : List (Outcome α)} {waiting : List (UInt32 × α)}

/-- What the producer does takes nothing and answers no pull. -/
theorem step_of_producer {o : Outcome α} (hTurn : turn.isProducer = true)
    (h : (x.step turn).1 = some o) : o.answered? = none ∧ o.taken = [] := by
  cases turn with
  | consumer => cases hTurn
  | producer next =>
      change (x.produce next).1 = some o at h
      rw [produce] at h
      split at h
      · cases h
      · split at h <;> cases h
        exact ⟨rfl, rfl⟩
      · cases h
      · cases h
        exact ⟨rfl, rfl⟩

theorem step_of_consumer {o : Outcome α} (hTurn : turn.isProducer = false)
    (h : (x.step turn).1 = some o) : o.pushed? = none ∧ o.placed = [] := by
  cases turn with
  | producer => cases hTurn
  | consumer =>
      change x.consume.1 = some o at h
      rw [consume] at h
      split at h
      · cases h
      · split at h <;> cases h
        exact ⟨rfl, rfl⟩
      · cases h
      · cases h
        exact ⟨rfl, rfl⟩

/-- While only the consumer goes on, nothing is published. -/
theorem placed_run_of_consumer {pause : List (Turn α)}
    (hPause : ∀ turn ∈ pause, turn.isProducer = false) : placed (x.run pause).1 = [] := by
  induction pause generalizing x with
  | nil => rfl
  | cons turn rest ih =>
      have hRest := ih (x := (x.step turn).2) (List.forall_mem_of_forall_mem_cons hPause)
      change placed ((x.step turn).1.toList ++ ((x.step turn).2.run rest).1) = []
      rw [placed, List.flatMap_append]
      refine List.append_eq_nil_iff.mpr ⟨?_, hRest⟩
      cases hStep : (x.step turn).1 with
      | none => rfl
      | some o =>
          rw [Option.toList_some, List.flatMap_singleton]
          exact (step_of_consumer (hPause turn List.mem_cons_self) hStep).2

/-- While only the producer goes on, nothing is taken. -/
theorem taken_run_of_producer {pause : List (Turn α)}
    (hPause : ∀ turn ∈ pause, turn.isProducer = true) : taken (x.run pause).1 = [] := by
  induction pause generalizing x with
  | nil => rfl
  | cons turn rest ih =>
      have hRest := ih (x := (x.step turn).2) (List.forall_mem_of_forall_mem_cons hPause)
      change taken ((x.step turn).1.toList ++ ((x.step turn).2.run rest).1) = []
      rw [taken, List.flatMap_append]
      refine List.append_eq_nil_iff.mpr ⟨?_, hRest⟩
      cases hStep : (x.step turn).1 with
      | none => rfl
      | some o =>
          rw [Option.toList_some, List.flatMap_singleton]
          exact (step_of_producer (hPause turn List.mem_cons_self) hStep).2

/-- What the end of a call says about the number of elements that wait, and does to it. -/
def Counts (capacity before after : Nat) : Option (Outcome α) → Prop
  | none => after = before
  | some (.accepted ..) => after = before + 1
  | some .refused => before = capacity ∧ after = before
  | some (.pulled _) => after + 1 = before
  | some .missed => before = 0 ∧ after = before

/-- A turn changes the number of elements by one at most, and its outcome says how. -/
theorem Tracks.step_counts (tracks : x.Tracks log waiting) (turn : Turn α) :
    ∃ waiting', (x.step turn).2.Tracks (log ++ (x.step turn).1.toList) waiting' ∧
      Counts x.ring.capacity.toNat waiting.length waiting'.length (x.step turn).1 := by
  obtain ⟨waiting', after⟩ := tracks.step turn
  have hBalance := tracks.balance after
  refine ⟨waiting', after, ?_⟩
  cases hStep : (x.step turn).1 with
  | none =>
      rw [hStep] at hBalance
      exact hBalance
  | some o =>
      rw [hStep] at hBalance
      cases o with
      | accepted slot a => exact hBalance
      | refused =>
          cases turn with
          | producer next => exact ⟨tracks.full_iff.mp (tracks.full_of_refused hStep), hBalance⟩
          | consumer =>
              exact absurd (step_of_consumer rfl hStep).1 (by simp [Outcome.pushed?])
      | pulled a => exact hBalance
      | missed =>
          cases turn with
          | producer next =>
              exact absurd (step_of_producer rfl hStep).1 (by simp [Outcome.answered?])
          | consumer =>
              have hNone : waiting = [] := tracks.empty_iff.mp (tracks.empty_of_missed hStep)
              exact ⟨List.length_eq_zero_iff.mpr hNone, hBalance⟩

/-- As long as the ring has room for so many more elements, so many pushes succeed: each of them
uses up one place, and a pull only gives one back. -/
theorem Tracks.accepts (tracks : x.Tracks log waiting) {k : Nat}
    (hRoom : k + waiting.length ≤ x.ring.capacity.toNat) (later : List (Turn α)) :
    Accepts k (x.run later).1 := by
  induction later generalizing x log waiting k with
  | nil => simp [Accepts, pushes, Exchange.run]
  | cons turn rest ih =>
      obtain ⟨waiting', after, hCounts⟩ := tracks.step_counts turn
      have hCapacity := congrArg UInt32.toNat (x.step_capacity turn)
      change Accepts k ((x.step turn).1.toList ++ ((x.step turn).2.run rest).1)
      cases hStep : (x.step turn).1 with
      | none =>
          have hSame : waiting'.length = waiting.length := by rwa [hStep] at hCounts
          exact ih after (by omega)
      | some o =>
          rw [hStep] at hCounts
          cases o with
          | accepted slot a =>
              have hMore : waiting'.length = waiting.length + 1 := hCounts
              cases k with
              | zero => simp [Accepts]
              | succ k =>
                  have hRest := ih after (k := k) (by omega)
                  simpa [Accepts, pushes, Outcome.pushed?] using hRest
          | refused =>
              obtain ⟨hFull, -⟩ : waiting.length = _ ∧ _ := hCounts
              obtain rfl : k = 0 := by omega
              simp [Accepts]
          | pulled a =>
              have hLess : waiting'.length + 1 = waiting.length := hCounts
              exact ih after (by omega)
          | missed =>
              have hSame : waiting'.length = waiting.length := hCounts.2
              exact ih after (by omega)

/-- As long as so many elements wait, so many pulls get one: each of them takes one, and a push only
adds to them. -/
theorem Tracks.yields (tracks : x.Tracks log waiting) {k : Nat} (hWaiting : k ≤ waiting.length)
    (later : List (Turn α)) : Yields k (x.run later).1 := by
  induction later generalizing x log waiting k with
  | nil => simp [Yields, pulls, Exchange.run]
  | cons turn rest ih =>
      obtain ⟨waiting', after, hCounts⟩ := tracks.step_counts turn
      change Yields k ((x.step turn).1.toList ++ ((x.step turn).2.run rest).1)
      cases hStep : (x.step turn).1 with
      | none =>
          have hSame : waiting'.length = waiting.length := by rwa [hStep] at hCounts
          exact ih after (by omega)
      | some o =>
          rw [hStep] at hCounts
          cases o with
          | accepted slot a =>
              have hMore : waiting'.length = waiting.length + 1 := hCounts
              exact ih after (by omega)
          | refused =>
              have hSame : waiting'.length = waiting.length := hCounts.2
              exact ih after (by omega)
          | pulled a =>
              have hLess : waiting'.length + 1 = waiting.length := hCounts
              cases k with
              | zero => simp [Yields]
              | succ k =>
                  have hRest := ih after (k := k) (by omega)
                  simpa [Yields, pulls, Outcome.answered?] using hRest
          | missed =>
              obtain ⟨hNone, -⟩ : waiting.length = 0 ∧ _ := hCounts
              obtain rfl : k = 0 := by omega
              simp [Yields]

end Exchange

/-- The steps done of the push that is under way, of at most four. -/
def Pushing.done : Pushing α → Nat
  | .idle => 0
  | .begun .. => 1
  | .granted .. => 2
  | .written .. => 3

/-- The steps done of the pull that is under way, of at most four. -/
def Pulling.done : Pulling α → Nat
  | .idle => 0
  | .begun _ => 1
  | .granted _ => 2
  | .fetched .. => 3

theorem Pushing.done_lt (pushing : Pushing α) : pushing.done < 4 := by
  cases pushing <;> simp [Pushing.done]

theorem Pulling.done_lt (pulling : Pulling α) : pulling.done < 4 := by
  cases pulling <;> simp [Pulling.done]

namespace Exchange

/-- A step of the producer is one more of its push, unless the push ends with it. -/
theorem done_produce (x : Exchange α) (next : α) : x.pushing.done + 1 ≤
    4 * (pushes (x.produce next).1.toList).length + (x.produce next).2.pushing.done := by
  cases hPush : x.pushing with
  | idle =>
      rw [produce_idle hPush]
      exact Nat.le_refl 1
  | begun a p =>
      by_cases hFull : Cursor.distance x.ring.capacity p x.ring.consumer = x.ring.capacity
      · rw [produce_refused hPush hFull]
        exact (by decide : 2 ≤ 4)
      · rw [produce_granted hPush hFull]
        exact Nat.le_refl 2
  | granted a p =>
      rw [produce_write hPush]
      exact Nat.le_refl 3
  | written a p =>
      rw [produce_publish hPush]
      exact Nat.le_refl 4

theorem pulling_produce (x : Exchange α) (next : α) :
    (x.produce next).2.pulling = x.pulling := by
  rw [produce]
  split
  · rfl
  · split <;> rfl
  · rfl
  · rfl

variable [Element α] {capacity : UInt32} {x : Exchange α} {log : List (Outcome α)}
  {waiting : List (UInt32 × α)}

/-- Every turn of the consumer is a step of a pull. -/
theorem done_consume (x : Exchange α) : x.pulling.done + 1 ≤
    4 * (pulls x.consume.1.toList).length + x.consume.2.pulling.done := by
  cases hPull : x.pulling with
  | idle =>
      rw [consume_idle hPull]
      exact Nat.le_refl 1
  | begun c =>
      by_cases hEmpty : x.ring.producer = c
      · rw [consume_missed hPull hEmpty]
        exact (by decide : 2 ≤ 4)
      · rw [consume_granted hPull hEmpty]
        exact Nat.le_refl 2
  | granted c =>
      rw [consume_read hPull]
      exact Nat.le_refl 3
  | fetched a c =>
      rw [consume_leave hPull]
      exact Nat.le_refl 4

theorem pushing_consume (x : Exchange α) : x.consume.2.pushing = x.pushing := by
  rw [consume]
  split
  · rfl
  · split <;> rfl
  · rfl
  · rfl

/-- If each step of a thread is one more of its call, unless the call ends with it, and the steps of
the other thread make no difference, then the steps along a schedule are those of the calls that
have ended, at most four each, and those of the one under way. -/
theorem countP_le {β : Type} (mine : Turn α → Bool) (ended? : Outcome α → Option β)
    (done : Exchange α → Nat)
    (hStep : ∀ x turn, done x + [turn].countP mine ≤
      4 * ((step x turn).1.toList.filterMap ended?).length + done (step x turn).2)
    (x : Exchange α) (schedule : List (Turn α)) : done x + schedule.countP mine ≤
      4 * ((x.run schedule).1.filterMap ended?).length + done (x.run schedule).2 := by
  induction schedule generalizing x with
  | nil => exact Nat.le_add_left ..
  | cons turn rest ih =>
      have hFirst := hStep x turn
      have hRest := ih (x.step turn).2
      have hRun : (x.run (turn :: rest)).1 =
        (x.step turn).1.toList ++ ((x.step turn).2.run rest).1 := rfl
      have hLast : (x.run (turn :: rest)).2 = ((x.step turn).2.run rest).2 := rfl
      rw [hRun, hLast, List.filterMap_append, List.length_append, ← List.singleton_append,
        List.countP_append]
      omega

/-- A push takes the producer at most four steps, whatever the consumer does. -/
theorem countP_producer_le (x : Exchange α) (schedule : List (Turn α)) :
    schedule.countP Turn.isProducer / 4 ≤ (pushes (x.run schedule).1).length := by
  have hSteps := countP_le Turn.isProducer Outcome.pushed? (fun x => x.pushing.done)
    (fun x turn => by
      cases turn with
      | producer next => exact x.done_produce next
      | consumer =>
          rw [step, x.pushing_consume]
          exact Nat.le_add_left ..) x schedule
  have hLast := (x.run schedule).2.pushing.done_lt
  rw [pushes]
  omega

/-- A pull takes the consumer at most four steps, whatever the producer does. -/
theorem countP_consumer_le (x : Exchange α) (schedule : List (Turn α)) :
    schedule.countP (! Turn.isProducer ·) / 4 ≤ (pulls (x.run schedule).1).length := by
  have hSteps := countP_le (! Turn.isProducer ·) Outcome.answered? (fun x => x.pulling.done)
    (fun x turn => by
      cases turn with
      | producer next =>
          rw [step, x.pulling_produce]
          exact Nat.le_add_left ..
      | consumer => exact x.done_consume) x schedule
  have hLast := (x.run schedule).2.pulling.done_lt
  rw [pulls]
  omega

/-- What the queries promise at a ring in the midst of its traffic. Between the two loads of a query
stands what the other thread does there, in `pause`; what both do after it is `later`. -/
structure Promises (x : Exchange α) : Prop where
  /-- The room that the producer is told is there for its next pushes. -/
  freeSpace : ∀ pause : List (Turn α), (∀ turn ∈ pause, turn.isProducer = false) → ∀ later,
    Accepts (seen x.ring (x.run pause).2.ring).freeSpace.toNat ((x.run pause).2.run later).1
  /-- The elements that the consumer is told are there for its next pulls. -/
  len : ∀ pause : List (Turn α), (∀ turn ∈ pause, turn.isProducer = true) → ∀ later,
    Yields (seen x.ring (x.run pause).2.ring).len.toNat ((x.run pause).2.run later).1
  isEmpty : ∀ pause : List (Turn α), (∀ turn ∈ pause, turn.isProducer = true) →
    (seen x.ring (x.run pause).2.ring).isEmpty = false → ∀ later,
    Yields 1 ((x.run pause).2.run later).1
  /-- The next pushes do come to an end, after four steps of the producer each. -/
  pushes_end : ∀ later : List (Turn α),
    later.countP Turn.isProducer / 4 ≤ (pushes (x.run later).1).length
  pulls_end : ∀ later : List (Turn α),
    later.countP (! Turn.isProducer ·) / 4 ≤ (pulls (x.run later).1).length
  /-- A query from elsewhere never answers out of range, whatever both threads do between its
  loads, and computes nothing that leaves the 32 bits. -/
  observed : ∀ between : List (Turn α), let torn := seen x.ring (x.run between).2.ring
    torn.len ≤ x.ring.capacity ∧ torn.freeSpace ≤ x.ring.capacity ∧ torn.InBounds

/-- What an observer may rely on, from any state that can be reached. -/
theorem Tracks.promises (tracks : x.Tracks log waiting) : x.Promises where
  freeSpace pause hPause later := by
    obtain ⟨waiting', after⟩ := tracks.run pause
    have hCapacity := x.run_capacity pause
    have hBalance := tracks.balance after
    have hFree := tracks.toNat_freeSpace_seen after hCapacity
    have hLen := tracks.toNat_len_seen after hCapacity
    have hLe := tracks.length_le
    have hPos := tracks.holds.sized.pos
    rw [placed_run_of_consumer hPause, List.length_nil, Nat.add_zero] at hBalance hLen
    rw [Nat.mod_eq_of_lt (by omega)] at hLen
    refine after.accepts ?_ later
    rw [hFree, hLen, hCapacity]
    omega
  len pause hPause later := by
    obtain ⟨waiting', after⟩ := tracks.run pause
    have hCapacity := x.run_capacity pause
    have hBalance := tracks.balance after
    have hLen := tracks.toNat_len_seen after hCapacity
    have hLe := after.length_le
    have hPos := tracks.holds.sized.pos
    rw [taken_run_of_producer hPause, List.length_nil, Nat.add_zero] at hBalance
    rw [hCapacity] at hLe
    rw [← hBalance, Nat.mod_eq_of_lt (by omega)] at hLen
    exact after.yields (by omega) later
  isEmpty pause hPause hSome later := by
    obtain ⟨waiting', after⟩ := tracks.run pause
    have hCapacity := x.run_capacity pause
    have hBalance := tracks.balance after
    have hEmpty := tracks.isEmpty_seen_iff after hCapacity
    rw [taken_run_of_producer hPause, List.length_nil, Nat.add_zero] at hBalance
    rw [hSome, ← hBalance] at hEmpty
    refine after.yields (Nat.pos_of_ne_zero fun hNone => ?_) later
    exact Bool.false_ne_true (hEmpty.mpr (hNone ▸ Nat.dvd_zero _))
  pushes_end := x.countP_producer_le
  pulls_end := x.countP_consumer_le
  observed between := by
    obtain ⟨waiting', after⟩ := tracks.run between
    have hCapacity := x.run_capacity between
    refine ⟨tracks.len_seen_le after hCapacity, ?_, tracks.inBounds_seen after hCapacity⟩
    rw [UInt32.le_iff_toNat_le, tracks.toNat_freeSpace_seen after hCapacity]
    exact Nat.sub_le ..

/-- At every point that two threads and the owner of a ring can come to, the queries keep their
promises. -/
theorem reachable_promises (sized : Cursor.Sized capacity) (reachable : Reachable capacity x) :
    x.Promises := by
  obtain ⟨-, log, waiting, tracks⟩ := reachable.tracks sized
  exact tracks.promises

/-- A ring of two slots that was cleared with an element in it. -/
def cleared : Exchange UInt8 :=
  let filled := ((start 2).run (List.replicate 4 (.producer 7))).2
  { filled with ring := filled.ring.clear }

/-- The ring with another element in it and the consumer about to give up its slot. -/
def busy : Exchange UInt8 :=
  (cleared.run (List.replicate 4 (.producer 8) ++ List.replicate 3 .consumer)).2

/-- An observer that loads between the two finds one place free in a ring of two. -/
theorem reachable_promises_busy : Cursor.Sized 2 ∧ Reachable 2 busy ∧
    (seen busy.ring (busy.run [.consumer]).2.ring).freeSpace = 1 ∧ busy.Promises := by
  have sized : Cursor.Sized 2 := ⟨by decide, by decide⟩
  have reachable : Reachable 2 busy :=
    ((Reachable.start.run _).clear (by decide +kernel) (by decide +kernel)).run _
  exact ⟨sized, reachable, by decide +kernel, reachable_promises sized reachable⟩

end Exchange
end TaskMemory.Ring

import TaskMemory.Proofs.Pool.Shift

/-!
Calls that nobody interrupts. A call that takes all its steps one after the other, with no other
call under way, does to the pool and its environment what the operation does that it is a call of,
and reports what the operation answers.
-/
namespace TaskMemory.Pool.Traffic

variable {α σ : Type} [Stored α] {s : Traffic α} {t : Stage α} {act : Act α} {pool : Pool α}
  {env : Environment} {w w' : Host α σ} {seen : Option Unit} {v : α} {h : Handle}
  {others : List (Seat α)}

/-- Alone at the pool a call comes to its end with this act, and this is what it leaves. -/
inductive Does : Traffic α → Stage α → Act α → Pool α → Environment → Prop where
  | last {s s' : Traffic α} {t : Stage α} {act : Act α} {pool : Pool α} {env : Environment}
      (hLast : s.advance t = some (act, none, s')) (hPool : s'.pool = pool) (hEnv : s'.env = env) :
      Does s t act pool env
  | next {s s₁ : Traffic α} {t t₁ : Stage α} {act₁ act : Act α} {pool : Pool α} {env : Environment}
      (hNext : s.advance t = some (act₁, some t₁, s₁)) (rest : Does s₁ t₁ act pool env) :
      Does s t act pool env

/-- A call that nobody interrupts comes to its end in the schedule that advances it alone. -/
theorem Does.run (does : Does s t act pool env) (number : Nat) : ∃ steps log s',
    rules.run ⟨s, [⟨number, t⟩]⟩ (List.replicate steps (.advance 0)) = (log ++ [act], ⟨s', []⟩) ∧
      s'.pool = pool ∧ s'.env = env := by
  induction does with
  | @last s s' t act pool env hLast hPool hEnv =>
      have hAdvance : rules.advance ⟨number, t⟩ s = some (act, none, s') := by simp [rules, hLast]
      exact ⟨1, [], s', Rules.run_single hAdvance [], hPool, hEnv⟩
  | @next s s₁ t t₁ act₁ act pool env hNext _ ih =>
      obtain ⟨steps, log, s', hRun, hLeft⟩ := ih
      have hAdvance : rules.advance ⟨number, t⟩ s = some (act₁, some ⟨number, t₁⟩, s₁) := by
        simp [rules, hNext]
      refine ⟨steps + 1, act₁ :: log, s', ?_, hLeft⟩
      rw [List.replicate_succ, Rules.run_single hAdvance, Option.toList_some, hRun]
      rfl

/-- What a construction reports. -/
def made : Except Refusal Handle → Act α
  | .ok h => .constructed h
  | .error refusal => .refused refusal

/-- A construction without a slot drops its value and reports why. -/
theorem does_refused {refusal : Refusal}
    (hAcquire : w.acquire Host.idle = (.error refusal, seen, w')) (hPool : s.pool = w'.pool)
    (hEnv : s.env = w'.env) :
    Does s (.refused v refusal) (made (w.insert v).1) (w.insert v).2.pool (w.insert v).2.env := by
  rcases hDrop : Stored.drop refusal.isFault v w'.env with ⟨_ | fault, rest, env⟩
  · have hLast : s.advance (.refused v refusal) = some (.refused refusal, none, s.withEnv env) := by
      simp only [advance, refuse, hEnv, hDrop]
    have hInsert : w.insert v = (.error refusal, { w' with env }) := by
      simp only [Host.insert, Host.construct, hAcquire, hDrop]
    rw [hInsert]
    exact .last hLast hPool rfl
  · have hLast : s.advance (.refused v refusal) =
        some (.refused (.fault fault), none, s.withEnv env) := by
      simp only [advance, refuse, hEnv, hDrop]
    have hInsert : w.insert v = (.error (.fault fault), { w' with env }) := by
      simp only [Host.insert, Host.construct, hAcquire, hDrop]
    rw [hInsert]
    exact .last hLast hPool rfl

/-- A construction with a slot puts its value there. -/
theorem does_claimed {site : Place} (hAcquire : w.acquire Host.idle = (.ok site, seen, w'))
    (hPool : s.pool = w'.pool) (hEnv : s.env = w'.env) :
    Does s (.claimed v site) (made (w.insert v).1) (w.insert v).2.pool (w.insert v).2.env := by
  have hInsert : w.insert v = (.ok (s.pool.handle site), { w' with
      pool := s.pool.publish site v
      env := s.env.raise
        (.constructed site.slab.toUInt32 site.offset.toUInt32 (s.pool.handle site)) }) := by
    simp only [Host.insert, Host.construct, hAcquire, Host.idle, hPool, hEnv]
  rw [hInsert]
  apply Does.next rfl
  exact Does.last rfl rfl rfl

/-- The slabs without a free slot are passed. -/
theorem Does.pass {n k : Nat} (hFull : ∀ i < n, ∃ slab,
    s.pool.directory.get? (k + i) = some slab ∧ slab.head = none)
    (does : Does s (.scanning v (k + n)) act pool env) :
    Does s (.scanning v k) act pool env := by
  induction n generalizing k with
  | zero => exact does
  | succ n ih =>
      obtain ⟨slab, hGet, hHead⟩ := hFull 0 (Nat.succ_pos n)
      have hNext : s.advance (.scanning v k) =
          some (.proceeded, some (.scanning v (k + 1)), s) := by
        rw [Nat.add_zero] at hGet
        simp only [advance, scan, hGet, hHead]
      apply Does.next hNext
      apply ih
      · intro i hi
        rw [Nat.add_assoc, Nat.add_comm 1]
        exact hFull (i + 1) (Nat.succ_lt_succ hi)
      · rwa [Nat.add_assoc, Nat.add_comm 1]

/-- A construction that finds a vacancy claims it. -/
theorem does_found {site : Place} (hVacancy : s.pool.vacancy? = some site) (hPool : s.pool = w.pool)
    (hEnv : s.env = w.env) :
    Does s (.scanning v 0) (made (w.insert v).1) (w.insert v).2.pool (w.insert v).2.env := by
  obtain ⟨slab, hGet, hHead⟩ := offers_vacancy hVacancy
  have hFull : ∀ i < site.slab, ∃ slab,
      s.pool.directory.get? (0 + i) = some slab ∧ slab.head = none := by
    intro i hi
    rw [Nat.zero_add]
    obtain ⟨slab, hGet⟩ := exists_get? (hi.trans (get?_lt hGet))
    exact ⟨slab, hGet, head_of_lt_vacancy hVacancy hi hGet⟩
  apply Does.pass hFull
  rw [Nat.zero_add]
  rcases hClaim : s.pool.claim site with ⟨refusal | found, pool⟩
  · have hAcquire : w.acquire Host.idle = (.error refusal, none, { w with pool }) := by
      simp only [Host.acquire, ← hPool, hVacancy, hClaim]
    have hNext : s.advance (.scanning v site.slab) =
        some (.proceeded, some (.refused v refusal), (s.withPool pool).leave) := by
      simp only [advance, scan, hGet, hHead, hClaim]
    exact .next hNext (does_refused hAcquire rfl hEnv)
  · have hAcquire : w.acquire Host.idle = (.ok found, none, { w with pool }) := by
      simp only [Host.acquire, ← hPool, hVacancy, hClaim]
    have hNext : s.advance (.scanning v site.slab) =
        some (.granted found, some (.claimed v found), (s.withPool pool).leave) := by
      simp only [advance, scan, hGet, hHead, hClaim]
    exact .next hNext (does_claimed hAcquire rfl hEnv)

/-- The block that was obtained becomes a slab. -/
theorem does_grown {block : Nat} (hIdle : s.readers = 0) (hVacancy : s.pool.vacancy? = none)
    (hRoom : s.pool.atLimit = false) (hPool : s.pool = w.pool)
    (hEnv : s.env = w.env.allocate w.pool.slabStorage) :
    Does s (.grown v block) (made (w.insert v).1) (w.insert v).2.pool (w.insert v).2.env := by
  rcases hPush : s.pool.directory.push directoryEntry (Slab.fresh s.pool.slabCapacity).unlink s.env
    with ⟨directory, env⟩
  have hNext : s.advance (.grown v block) = some (.appended block ⟨s.pool.slabCount, 0⟩,
      some (.claimed v ⟨s.pool.slabCount, 0⟩), { s with
        pool := { s.pool with directory }
        env := env.raise (.slabCreated s.pool.slabCount.toUInt32 s.pool.codec.slabCapacity
          s.pool.slabStorage.size) }) := by
    simp only [advance, hIdle, if_true, settle, hVacancy, hRoom, hPush, Bool.false_eq_true,
      if_false]
  have hAcquire : w.acquire Host.idle = (.ok ⟨s.pool.slabCount, 0⟩, some (), { w with
      pool := { s.pool with directory }
      env := env.raise (.slabCreated s.pool.slabCount.toUInt32 s.pool.codec.slabCapacity
        s.pool.slabStorage.size) }) := by
    rw [hPool] at hVacancy hRoom hPush
    rw [hEnv] at hPush
    simp only [Host.acquire, Host.idle, extend, hVacancy, hRoom, hPush, hPool, Bool.false_eq_true,
      if_false]
  exact .next hNext (does_claimed hAcquire rfl rfl)

/-- A construction that finds no vacancy goes to the end of the slabs, and grows the pool or is
refused. -/
theorem does_full (hHeld : s.readers = 1) (hVacancy : s.pool.vacancy? = none)
    (hPool : s.pool = w.pool) (hEnv : s.env = w.env) :
    Does s (.scanning v 0) (made (w.insert v).1) (w.insert v).2.pool (w.insert v).2.env := by
  have hFull : ∀ i < s.pool.slabCount, ∃ slab,
      s.pool.directory.get? (0 + i) = some slab ∧ slab.head = none := by
    intro i hi
    rw [Nat.zero_add]
    obtain ⟨slab, hGet⟩ := exists_get? hi
    exact ⟨slab, hGet, vacancy?_eq_none hVacancy hGet⟩
  apply Does.pass hFull
  rw [Nat.zero_add]
  have hEnd : s.pool.directory.get? s.pool.slabCount = none :=
    Array.getElem?_eq_none (Nat.le_refl _)
  cases hLimit : s.pool.atLimit with
  | true =>
      have hAcquire : w.acquire Host.idle = (.error (.noSlot s.pool.exhausted), none,
          { w with env := s.env.raise (.poolExhausted s.pool.codec.maxSlabs) }) := by
        rw [hPool] at hVacancy hLimit
        simp only [Host.acquire, hVacancy, hLimit, if_true, hPool, hEnv]
      have hNext : s.advance (.scanning v s.pool.slabCount) =
          some (.proceeded, some (.refused v (.noSlot s.pool.exhausted)),
            (s.withEnv (s.env.raise (.poolExhausted s.pool.codec.maxSlabs))).leave) := by
        simp only [advance, scan, hEnd, hLimit, if_true]
      exact .next hNext (does_refused hAcquire hPool rfl)
  | false =>
      have hNext : s.advance (.scanning v s.pool.slabCount) =
          some (.proceeded, some (.growing v), s.leave) := by
        simp only [advance, scan, hEnd, hLimit, Bool.false_eq_true, if_false]
      have hIdle : s.readers - 1 = 0 := by rw [hHeld]
      have hGrown : s.env.allocate s.pool.slabStorage = w.env.allocate w.pool.slabStorage := by
        rw [hEnv, hPool]
      apply Does.next hNext
      apply Does.next rfl
      exact does_grown hIdle hVacancy hLimit hPool hGrown

/-- A construction alone is `Host.insert`. -/
theorem does_construct (hHeld : s.readers = 1) (hPool : s.pool = w.pool) (hEnv : s.env = w.env) :
    Does s (.scanning v 0) (made (w.insert v).1) (w.insert v).2.pool (w.insert v).2.env := by
  cases hVacancy : s.pool.vacancy? with
  | some site => exact does_found hVacancy hPool hEnv
  | none => exact does_full hHeld hVacancy hPool hEnv

/-- What a destruction, or the call that moves a value out, reports. -/
def ended : Except Fault (Option α) → Act α
  | .ok given => .returned given
  | .error fault => .broken fault

/-- A slot whose value is gone is given back. -/
theorem does_emptied {site : Place} {given : Option α} (hTaken : s.pool.isFree site = false) :
    Does s (.emptied site given) (.returned given) (s.pool.recycled site) s.env := by
  have hNext : s.advance (.emptied site given) =
      some (.released site, some (.released given), s.withPool (s.pool.reclaim site)) := by
    simp only [advance, giveBack, hTaken, Bool.false_eq_true, if_false]
  apply Does.next hNext
  exact Does.last rfl rfl rfl

/-- A destruction whose drop ends well gives the slot back. -/
theorem does_dropped {rest : α} (hTaken : s.pool.isFree (s.pool.place h) = false)
    (hDrop : Stored.endDrop false v s.env = (none, rest, env)) :
    Does s (.dropping h v) (.returned none) (s.pool.recycled (s.pool.place h)) env := by
  have hNext : s.advance (.dropping h v) =
      some (.proceeded, some (.emptied (s.pool.place h) none), s.withEnv env) := by
    simp only [advance, endDrop, hDrop]
  apply Does.next hNext
  exact does_emptied hTaken

/-- A destruction whose drop breaks off leaves the slot with what is left of the value. -/
theorem does_spoiled {fault : Fault} {rest : α}
    (hDrop : Stored.endDrop false v s.env = (some fault, rest, env)) :
    Does s (.dropping h v) (.broken fault)
      (s.pool.update (s.pool.place h) (Slot.write rest)) env := by
  have hLast : s.advance (.dropping h v) = some (.broken fault, none, { s with
      pool := s.pool.update (s.pool.place h) (Slot.write rest)
      env
      spent := (s.pool.place h, rest) :: s.spent }) := by
    simp only [advance, endDrop, hDrop]
  exact .last hLast rfl rfl

/-- The drop of a value that can be used. -/
theorem remove_eq (housed : w.pool.Housed (⟨w.pool.place h, .value v⟩ :: others)) :
    w.remove h =
      match Stored.endDrop false v (Stored.beginDrop v w.env) with
      | (none, _, env) => (.ok (), { w with
          pool := (w.pool.update (w.pool.place h) Slot.retire).recycled (w.pool.place h), env })
      | (some fault, rest, env) => (.error fault, { w with
          pool := (w.pool.update (w.pool.place h) Slot.retire).update (w.pool.place h)
            (Slot.write rest), env }) := by
  obtain ⟨hSlab, slot, hSlot, -, hRead⟩ := housed.exists_slot List.mem_cons_self
  have hHas : w.pool.hasSlab h = true := decide_eq_true hSlab
  have hRecycle := housed.retire.recycle_eq
  rcases hDrop : Stored.endDrop false v (Stored.beginDrop v w.env) with ⟨_ | fault, rest, env⟩
  · cases hCode : Stored.runsCode α <;>
      simp [Host.remove, Host.destroy, Host.recycle, Host.idle, hHas, hSlot, hRead, hDrop, hRecycle,
        hCode]
  · cases hCode : Stored.runsCode α <;>
      simp [Host.remove, Host.destroy, Host.idle, hHas, hSlot, hRead, hDrop, hCode]

/-- The drop of a value is `Host.remove`. -/
theorem does_destroy (housed : s.pool.Housed (⟨s.pool.place h, .value v⟩ :: others))
    (hPool : s.pool = w.pool) (hEnv : s.env = w.env) :
    Does s (.closing h v) (ended ((w.remove h).1.map fun _ => none)) (w.remove h).2.pool
      (w.remove h).2.env := by
  obtain ⟨hSlab, slot, hSlot, -, hRead⟩ := housed.exists_slot List.mem_cons_self
  have hHas : s.pool.hasSlab h = true := decide_eq_true hSlab
  have hTaken := housed.retire.tidy.isFree_of_taken List.mem_cons_self
  have hNext : s.advance (.closing h v) = some (.proceeded, some (.dropping h v), { s with
      pool := s.pool.update (s.pool.place h) Slot.retire, env := Stored.beginDrop v s.env }) := by
    simp only [advance, beginDrop, hHas, if_true, hSlot, Option.bind_some, hRead]
  have hRemove := remove_eq (hPool ▸ housed)
  apply Does.next hNext
  rcases hDrop : Stored.endDrop false v (Stored.beginDrop v s.env) with ⟨_ | fault, rest, env⟩
  · rw [hRemove, ← hEnv, ← hPool, hDrop]
    exact does_dropped hTaken hDrop
  · rw [hRemove, ← hEnv, ← hPool, hDrop]
    exact does_spoiled hDrop

/-- The move of a value out of the pool is `Host.take`. -/
theorem does_take (housed : s.pool.Housed (⟨s.pool.place h, .value v⟩ :: others))
    (hPool : s.pool = w.pool) (hEnv : s.env = w.env) :
    Does s (.moving h v) (ended (w.take h).1) (w.take h).2.pool (w.take h).2.env := by
  have hHas : s.pool.hasSlab h = true := decide_eq_true (housed.exists_slot List.mem_cons_self).1
  have hValue := housed.value?_eq List.mem_cons_self
  have hRecycle := housed.recycle_eq
  have hTaken := housed.retire.tidy.isFree_of_taken List.mem_cons_self
  have hNext : s.advance (.moving h v) = some (.proceeded,
      some (.emptied (s.pool.place h) (some v)),
      s.withPool (s.pool.update (s.pool.place h) Slot.retire)) := by
    simp only [advance, moveOut, hHas, if_true, hValue]
  have hTake : w.take h = (.ok (some v), { w with
      pool := (s.pool.recycled (s.pool.place h)).update (s.pool.place h) Slot.retire }) := by
    rw [hPool] at hHas hValue hRecycle ⊢
    simp only [Host.take, Host.get?, hHas, if_true, hValue, Host.recycle, hRecycle]
    rfl
  rw [hTake, update_retire_recycled, hEnv.symm]
  apply Does.next hNext
  exact does_emptied hTaken

/-- Alone at the pool, a call for the request reports this and leaves the pool and the environment
as the host has them. -/
def Runs (s : Traffic α) (request : Request α) (act : Act α) (w : Host α σ) : Prop :=
  ∃ steps log s', rules.run ⟨s, []⟩ (.start request :: List.replicate steps (.advance 0)) =
    (log ++ [act], ⟨s', []⟩) ∧ s'.pool = w.pool ∧ s'.env = w.env

theorem Does.runs {s' : Traffic α} {request : Request α} (hStart : s.start request = some (t, s'))
    (does : Does { s' with calls := s'.calls + 1 } t act w.pool w.env) : Runs s request act w := by
  obtain ⟨steps, log, last, hRun, hLeft⟩ := does.run s'.calls
  refine ⟨steps, log, last, ?_, hLeft⟩
  have hCall : rules.start request s =
      some (⟨s'.calls, t⟩, { s' with calls := s'.calls + 1 }) := by simp [rules, hStart]
  simp only [Rules.run, Rules.step, hCall, Option.toList_none, List.nil_append, hRun]

/-- Alone at the pool a construction does what an insertion does. -/
theorem runs_construct (fits : s.Fits []) (v : α) (hPool : s.pool = w.pool) (hEnv : s.env = w.env) :
    Runs s (.construct v) (made (w.insert v).1) (w.insert v).2 := by
  have hHeld : s.readers + 1 = 1 := by rw [fits.readers, List.countP_nil]
  apply Does.runs rfl
  exact does_construct hHeld hPool hEnv

/-- Alone at the pool a destruction does what the removal of the value does. -/
theorem runs_destroy {r : Handle × α} (fits : s.Fits []) (hMem : r ∈ s.held)
    (hPool : s.pool = w.pool) (hEnv : s.env = w.env) :
    Runs s (.destroy r.1) (ended ((w.remove r.1).1.map fun _ => none)) (w.remove r.1).2 := by
  obtain ⟨v, hFind⟩ := exists_find? hMem
  have hStart : s.start (.destroy r.1) =
      some (.closing r.1 v, { s with held := s.held.eraseP (·.1 = r.1) }) := by
    simp [start, handOver, hFind]
  have hFits : Fits _ ([] ++ ⟨_, .closing r.1 v⟩ :: []) := fits.start hStart
  apply Does.runs hStart
  exact does_destroy hFits.front hPool hEnv

/-- Alone at the pool a call for a value does what taking it out does. -/
theorem runs_take {r : Handle × α} (fits : s.Fits []) (hMem : r ∈ s.held)
    (hPool : s.pool = w.pool) (hEnv : s.env = w.env) :
    Runs s (.take r.1) (ended (w.take r.1).1) (w.take r.1).2 := by
  obtain ⟨v, hFind⟩ := exists_find? hMem
  have hStart : s.start (.take r.1) =
      some (.moving r.1 v, { s with held := s.held.eraseP (·.1 = r.1) }) := by
    simp [start, handOver, hFind]
  have hFits : Fits _ ([] ++ ⟨_, .moving r.1 v⟩ :: []) := fits.start hStart
  apply Does.runs hStart
  exact does_take hFits.front hPool hEnv

end TaskMemory.Pool.Traffic

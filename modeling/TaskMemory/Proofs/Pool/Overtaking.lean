import TaskMemory.Proofs.Pool.Acquisition

/-!
Growth that has been overtaken. While a construction obtains the block of a new slab, a program may
do anything to the pool. The construction looks at all that again before it uses the block, so it
comes to what a construction comes to that begins when the program has ended. If it finds a slot
that has become free, or the limit reached, it has obtained and given back a block for nothing, and
nothing else tells the two apart.
-/
namespace TaskMemory

/-- The account with one block more that has been obtained and given back; with it, so many bytes
were out. -/
def Ledger.detour (l : Ledger) (top : Nat) : Ledger where
  allocations := l.allocations + 1
  deallocations := l.deallocations + 1
  liveBytes := l.liveBytes
  peakBytes := max l.peakBytes top

/-- A block that comes and goes leaves a detour in the ledger. -/
theorem Ledger.giveBack_grant (l : Ledger) (size : Nat) :
    (l.grant size).giveBack size = l.detour (l.liveBytes + size) := by
  simp [grant, giveBack, detour]

namespace Resource

variable {r : Resource} {block : Layout}

/-- A block that is granted and given back goes through all counting layers. -/
theorem ledgers_detour (hGranted : (r.allocate block).1 = true) :
    ((r.allocate block).2.1.deallocate block).1.ledgers =
      List.zipWith Ledger.detour r.ledgers (r.ledgers.map (·.liveBytes + block.size)) := by
  induction r with
  | system policy requests live =>
      rw [allocate] at hGranted ⊢
      split <;> rfl
  | counting ledger inner ih =>
      rcases hInner : inner.allocate block with ⟨_ | _, inner', events⟩
      · simp [allocate, hInner] at hGranted
      · rw [hInner] at ih
        simp only [allocate, hInner, deallocate, ledgers, ih rfl, List.map_cons,
          List.zipWith_cons_cons, Ledger.giveBack_grant]
  | tracing inner ih =>
      simp only [allocate, deallocate, ledgers] at hGranted ⊢
      exact ih hGranted

theorem events_allocate (r : Resource) (block : Layout) :
    ∀ e ∈ (r.allocate block).2.2, e = .allocated block := by
  induction r with
  | system policy requests live =>
      rw [allocate]
      split <;> simp
  | counting ledger inner ih =>
      rw [allocate]
      rcases hInner : inner.allocate block with ⟨_ | _, inner', events⟩ <;> simpa [hInner] using ih
  | tracing inner ih =>
      intro e hMem
      rcases List.mem_append.mp hMem with hInner | hLast
      · exact ih e hInner
      · exact List.mem_singleton.mp hLast

theorem events_deallocate (r : Resource) (block : Layout) :
    ∀ e ∈ (r.deallocate block).2, e = .deallocated block := by
  induction r with
  | system policy requests live => simp [deallocate]
  | counting ledger inner ih => simpa [deallocate] using ih
  | tracing inner ih => simpa [deallocate] using ih

end Resource

/-- Whether an event reports that such a block is obtained or given back. -/
def Event.reports (block : Layout) (e : Event) : Bool :=
  e = .allocated block || e = .deallocated block

namespace Environment

/-- The second environment differs from the first one in a block more that has been obtained and
given back, and with which so many bytes were out at the counting layers. -/
structure Detoured (block : Layout) (tops : List Nat) (env env' : Environment) : Prop where
  ledgers : env'.resource.ledgers = List.zipWith Ledger.detour env.resource.ledgers tops
  events : env'.events.toList.filter (!Event.reports block ·) =
    env.events.toList.filter (!Event.reports block ·)
  drops : env'.drops = env.drops
  log : env'.log = env.log

variable {block : Layout} {tops : List Nat} {env env' : Environment}

/-- A block that is obtained and given back at once is a detour. -/
theorem detoured_probe (hSize : block.size ≠ 0)
    (hGranted : (env.resource.allocate block).1 = true) :
    Detoured block (env.resource.ledgers.map (·.liveBytes + block.size)) env
      ((env.allocate block).release block) := by
  have hAllocated := Resource.events_allocate env.resource block
  have hLedgers := Resource.ledgers_detour hGranted
  rcases hAllocate : env.resource.allocate block with ⟨granted, resource, events⟩
  rw [hAllocate] at hAllocated hLedgers
  have hReleased := Resource.events_deallocate resource block
  rcases hRelease : resource.deallocate block with ⟨resource', events'⟩
  rw [hRelease] at hReleased hLedgers
  have hProbe : (env.allocate block).release block =
      { env with
        resource := resource'
        events := env.events ++ events.toArray ++ events'.toArray } := by
    simp only [allocate, release, hSize, ↓reduceIte, hAllocate, hRelease]
  rw [hProbe]
  refine ⟨hLedgers, ?_, rfl, rfl⟩
  have hNone : events.filter (!Event.reports block ·) = [] := by
    rw [List.filter_eq_nil_iff]
    intro e hMem
    simp [hAllocated e hMem, Event.reports]
  have hNone' : events'.filter (!Event.reports block ·) = [] := by
    rw [List.filter_eq_nil_iff]
    intro e hMem
    simp [hReleased e hMem, Event.reports]
  simp [hNone, hNone']

/-- An event is raised after the detour as it is without one. -/
theorem Detoured.raise (detoured : Detoured block tops env env') (event : Event) :
    Detoured block tops (env.raise event) (env'.raise event) where
  ledgers := detoured.ledgers
  events := by simp [Environment.raise, List.filter_append, detoured.events]
  drops := detoured.drops
  log := detoured.log

theorem Detoured.noteDrop (detoured : Detoured block tops env env') (id : UInt64) :
    Detoured block tops (env.noteDrop id) (env'.noteDrop id) where
  ledgers := detoured.ledgers
  events := detoured.events
  drops := congrArg (·.push id) detoured.drops
  log := detoured.log

end Environment

/-- The drop of a value does not tell environments apart that are related so. -/
structure Stored.Overlooks {α : Type} [Stored α] (R : Environment → Environment → Prop) (v : α) :
    Prop where
  beginDrop : ∀ {env env'}, R env env' → R (Stored.beginDrop v env) (Stored.beginDrop v env')
  endDrop : ∀ {env env'} (unwinding : Bool), R env env' →
    (Stored.endDrop unwinding v env').1 = (Stored.endDrop unwinding v env).1 ∧
    (Stored.endDrop unwinding v env').2.1 = (Stored.endDrop unwinding v env).2.1 ∧
    R (Stored.endDrop unwinding v env).2.2 (Stored.endDrop unwinding v env').2.2

variable {α σ : Type} [Stored α]

/-- A drop that overlooks the difference ends the same way. -/
theorem Stored.Overlooks.drop {R : Environment → Environment → Prop} {v : α}
    (overlooks : Overlooks R v) {env env' : Environment} (unwinding : Bool) (related : R env env') :
    (Stored.drop unwinding v env').1 = (Stored.drop unwinding v env).1 ∧
      R (Stored.drop unwinding v env).2.2 (Stored.drop unwinding v env').2.2 :=
  have hEnd := overlooks.endDrop unwinding (overlooks.beginDrop related)
  ⟨hEnd.1, hEnd.2.2⟩

/-- The drop of a tracked value overlooks what a record of the drop does not touch. -/
theorem Tracked.overlooks {R : Environment → Environment → Prop}
    (hNote : ∀ {env env'} id, R env env' → R (env.noteDrop id) (env'.noteDrop id)) (v : Tracked) :
    Stored.Overlooks R v where
  beginDrop := hNote v.id
  endDrop _ related := ⟨rfl, rfl, related⟩

/-- A value without a slot is dropped in the same way in environments that its drop does not tell
apart. -/
theorem Host.refuse_overlooks {R : Environment → Environment → Prop} {v : α}
    (overlooks : Stored.Overlooks R v) (refusal : Refusal) {w : Host α σ} {env' : Environment}
    (related : R w.env env') :
    (lodge v (.error refusal) { w with env := env' }).1 = (lodge v (.error refusal) w).1 ∧
    (lodge v (.error refusal) { w with env := env' }).2.pool = w.pool ∧
    (lodge v (.error refusal) { w with env := env' }).2.state = w.state ∧
    (lodge v (.error refusal) w).2.pool = w.pool ∧ (lodge v (.error refusal) w).2.state = w.state ∧
    R (lodge v (.error refusal) w).2.env
      (lodge v (.error refusal) { w with env := env' }).2.env := by
  obtain ⟨hFault, hEnv⟩ := overlooks.drop refusal.isFault related
  rcases hDrop : Stored.drop refusal.isFault v w.env with ⟨fault, rest, env⟩
  rcases hDrop' : Stored.drop refusal.isFault v env' with ⟨fault', rest', env''⟩
  rw [hDrop, hDrop'] at hFault hEnv
  obtain rfl : fault' = fault := hFault
  cases fault' <;> simpa only [lodge, hDrop, hDrop', true_and] using hEnv

namespace Pool

/-- A construction that is overtaken: the program runs while the block of a new slab is obtained. -/
def Usage.overtaken (v : α) (next : Program α) (w : Usage α) : Except Refusal Handle × Usage α :=
  match Host.construct v (fun w => ((), next.run w)) Host.idle none w with
  | (done, w) => (done.made, w)

/-- A construction that is overtaken acquires its slot after the code that overtakes it. -/
theorem Usage.overtaken_eq (v : α) (next : Program α) (w : Usage α) :
    w.overtaken v next = Host.lodge v (w.acquire fun w => ((), next.run w)).1
      (w.acquire fun w => ((), next.run w)).2.2 :=
  Host.construct_idle v _ w

/-- Growth that is overtaken is the construction after the program. When the program has left a free
slot or the pool at its limit, the block of a slab has been obtained and given back for nothing. In
the latter case the value is dropped, and its drop must not look at the accounts. -/
theorem Program.overtaken_insert {o : PoolOptions} {p : Pool α} (h : Pool.create o = .ok p)
    (env : Environment) (program next : Program α) (v : α) :
    ∀ view ∈ (program.run (Usage.start p env)).state.views,
      view.pool.vacancy? = none → view.pool.atLimit = false →
    ∀ w : Usage α, next.run (Usage.resume view) = w →
      (w.env.resource.allocate w.pool.slabStorage).1 = true →
      (w.pool.vacancy? = none → w.pool.atLimit = true →
        ∀ tops, Stored.Overlooks (Environment.Detoured w.pool.slabStorage tops) v) →
      ((Usage.resume view).overtaken v next).1 = (w.insert v).1 ∧
      ((Usage.resume view).overtaken v next).2.pool = (w.insert v).2.pool ∧
      ((Usage.resume view).overtaken v next).2.state = (w.insert v).2.state ∧
      if w.pool.vacancy?.isSome ∨ w.pool.atLimit = true then
        Environment.Detoured w.pool.slabStorage
          (w.env.resource.ledgers.map (·.liveBytes + w.pool.slabStorage.size))
          (w.insert v).2.env ((Usage.resume view).overtaken v next).2.env
      else ((Usage.resume view).overtaken v next).2.env = (w.insert v).2.env := by
  intro view hView hFull hRoom w hRun hGranted overlooks
  obtain ⟨claims, reached⟩ := (program.follows_initial h env).views view hView
  have follows : Follows (Moment.initial p) env claims view.state.closing w :=
    hRun ▸ next.follows (Moment.fits_initial h) reached.resumed
  have fits := follows.fits (Moment.fits_initial h)
  have housed : w.pool.Housed (w.moment claims).seats := fits.housed
  obtain ⟨offsetBits, slabBits, packs⟩ := fits.packs
  have hSize : w.pool.slabStorage.size ≠ 0 := slabStorage_size_ne_zero packs
  have probe := Environment.detoured_probe hSize hGranted
  have hGrown := Host.acquire_of_room (w := Usage.resume view) (fun w => ((), next.run w)) hFull
    hRoom (congrArg _ hRun)
  rw [Usage.overtaken_eq, Host.insert_eq, hGrown]
  cases hVacancy : w.pool.vacancy? with
  | some site =>
      rw [extend_of_vacancy housed hVacancy, Host.acquire_of_vacancy _ housed hVacancy]
      exact ⟨rfl, rfl, rfl, probe.raise _⟩
  | none =>
      cases hLimit : w.pool.atLimit with
      | true =>
          rw [extend_of_atLimit hVacancy hLimit, Host.acquire_of_atLimit _ hVacancy hLimit]
          obtain ⟨hMade, hPool', hState', hPool, hState, hEnv⟩ :=
            Host.refuse_overlooks (overlooks hVacancy hLimit _) (.noSlot w.pool.exhausted)
              (w := { w with env := w.env.raise (.poolExhausted w.pool.codec.maxSlabs) })
              (probe.raise _)
          exact ⟨hMade, hPool'.trans hPool.symm, hState'.trans hState.symm, by simpa using hEnv⟩
      | false =>
          rw [Host.acquire_of_room Host.idle hVacancy hLimit rfl]
          simp

/-- Two values fill the first slab. -/
def Program.full : Program Tracked :=
  .construct ⟨1, false⟩ .done .done none (.construct ⟨2, false⟩ .done .done none .done)

/-- The growth of a third value is overtaken by one that takes the first value out, and after that
the second value is taken out. -/
def Program.hasty : Program Tracked :=
  .construct ⟨3, false⟩ (.take ⟨0⟩ .done) .done none (.take ⟨1⟩ .done)

/-- The construction that is overtaken gets the slot of the second value, and the block that it has
obtained is given back. -/
theorem Program.overtaken_insert_hasty :
    ∃ view ∈ (full.run (Usage.start (pair Tracked) untouched)).state.views, ∃ w : Usage Tracked,
      hasty.run (Usage.resume view) = w ∧ (w.insert ⟨4, false⟩).1 = .ok ⟨1⟩ ∧
      ((Usage.resume view).overtaken ⟨4, false⟩ hasty).1 = (w.insert ⟨4, false⟩).1 ∧
      Environment.Detoured ⟨32, 8⟩ [160] (w.insert ⟨4, false⟩).2.env
        ((Usage.resume view).overtaken ⟨4, false⟩ hasty).2.env := by
  let w := ((Usage.start (pair Tracked) untouched).look.construct ⟨1, false⟩ (run .done) (run .done)
    none).look.construct ⟨2, false⟩ (run .done) (run .done) none
  have hView : (⟨w.pool, w.env, w.state.book⟩ : Host Tracked (Book Tracked)) ∈
      (full.run (Usage.start (pair Tracked) untouched)).state.views :=
    List.mem_append_right _ List.mem_cons_self
  have overlooks : ∀ block tops,
      Stored.Overlooks (Environment.Detoured block tops) (⟨4, false⟩ : Tracked) := fun _ _ =>
    Tracked.overlooks (fun id detoured => detoured.noteDrop id) _
  obtain ⟨hMade, -, -, hEnv⟩ := Program.overtaken_insert create_pair untouched full hasty
    ⟨4, false⟩ _ hView (by decide +kernel) (by decide +kernel) _ rfl (by decide +kernel)
    fun _ _ => overlooks _
  have hStorage : (hasty.run (Usage.resume ⟨w.pool, w.env, w.state.book⟩)).pool.slabStorage =
      ⟨32, 8⟩ := by decide +kernel
  have hTops : (hasty.run (Usage.resume ⟨w.pool, w.env, w.state.book⟩)).env.resource.ledgers.map
      (·.liveBytes + 32) = [160] := by decide +kernel
  rw [if_pos (by decide +kernel), hStorage, hTops] at hEnv
  exact ⟨_, hView, _, rfl, by decide +kernel, hMade, hEnv⟩

end Pool
end TaskMemory

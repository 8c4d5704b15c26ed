import TaskMemory.Proofs.Pool.Simulation

/-!
How a construction comes to its slot, case by case: there is a free slot, the pool is full and at
its limit, or a new slab is called for. A construction whose value is ready goes on from the slot in
the same way in all cases.
-/
namespace TaskMemory

variable {α σ β : Type} [Stored α]

namespace Pool

variable {p : Pool α} {site : Place} {seats : List (Seat α)}

/-- The first vacancy is claimed. -/
theorem claim_of_vacancy (housed : p.Housed seats) (hVacancy : p.vacancy? = some site) :
    p.claim site = (.ok site, p.mapSlab site.slab Slab.unlink) :=
  housed.tidy.claim_eq (offers_vacancy hVacancy)

/-- The block of a new slab is obtained and given back, since a slot has become free. -/
theorem extend_of_vacancy (housed : p.Housed seats) (hVacancy : p.vacancy? = some site)
    (env : Environment) : p.extend env = (.ok site, p.mapSlab site.slab Slab.unlink,
      (env.allocate p.slabStorage).release p.slabStorage) := by
  simp only [extend, hVacancy, claim_of_vacancy housed hVacancy]

/-- The block of a new slab is obtained and given back, since the limit has been reached. -/
theorem extend_of_atLimit (hVacancy : p.vacancy? = none) (hLimit : p.atLimit = true)
    (env : Environment) : p.extend env = (.error (.noSlot p.exhausted), p,
      ((env.allocate p.slabStorage).release p.slabStorage).raise
        (.poolExhausted p.codec.maxSlabs)) := by
  simp only [extend, hVacancy, hLimit, ↓reduceIte]

/-- What is reported of a new slab. -/
def slabCreated (p : Pool α) : Event :=
  .slabCreated p.slabCount.toUInt32 p.codec.slabCapacity p.slabStorage.size

/-- A pool below its limit grows by a slab, and the new slot is the first one there. -/
theorem extend_of_room (hVacancy : p.vacancy? = none) (hRoom : p.atLimit = false)
    (env : Environment) : p.extend env = (.ok ⟨p.slabCount, 0⟩, p.append,
      (Effect.replay p.growth (env.allocate p.slabStorage)).raise p.slabCreated) := by
  simp only [extend, hVacancy, hRoom, Bool.false_eq_true, ↓reduceIte, push_eq]
  rfl

end Pool

namespace Host

variable {w w' : Host α σ} (growing : Host α σ → β × Host α σ) {site : Place}
  {seats : List (Seat α)}

/-- Where there is a vacancy nothing is obtained and no callback runs. -/
theorem acquire_of_vacancy (housed : w.pool.Housed seats) (hVacancy : w.pool.vacancy? = some site) :
    w.acquire growing = (.ok site, none,
      { w with pool := w.pool.mapSlab site.slab Slab.unlink }) := by
  simp only [acquire, hVacancy, Pool.claim_of_vacancy housed hVacancy]

/-- A full pool at its limit refuses. -/
theorem acquire_of_atLimit (hVacancy : w.pool.vacancy? = none) (hLimit : w.pool.atLimit = true) :
    w.acquire growing = (.error (.noSlot w.pool.exhausted), none,
      { w with env := w.env.raise (.poolExhausted w.pool.codec.maxSlabs) }) := by
  simp only [acquire, hVacancy, hLimit, ↓reduceIte]

/-- A full pool below its limit obtains a block, runs the callback and then looks again. -/
theorem acquire_of_room (hVacancy : w.pool.vacancy? = none) (hRoom : w.pool.atLimit = false)
    {seen : β} (hGrowing : growing w = (seen, w')) :
    w.acquire growing = ((w'.pool.extend w'.env).1, some seen,
      { w' with pool := (w'.pool.extend w'.env).2.1, env := (w'.pool.extend w'.env).2.2 }) := by
  simp only [acquire, hVacancy, hRoom, Bool.false_eq_true, ↓reduceIte, hGrowing]

/-- Put a value into the slot that a construction has come to, or drop it without one. -/
def lodge (v : α) : Except Refusal Place → Host α σ → Except Refusal Handle × Host α σ
  | .ok site, w =>
    let handle := w.pool.handle site
    let event := Event.constructed site.slab.toUInt32 site.offset.toUInt32 handle
    (.ok handle, { w with pool := w.pool.publish site v, env := w.env.raise event })
  | .error refusal, w =>
    match Stored.drop refusal.isFault v w.env with
    | (none, _, env) => (.error refusal, { w with env })
    | (some fault, _, env) => (.error (.fault fault), { w with env })

/-- A construction whose value is ready comes to a slot and puts the value there. -/
theorem construct_idle (v : α) (growing : Host α σ → β × Host α σ) (w : Host α σ) :
    ((w.construct v growing idle none).1.made, (w.construct v growing idle none).2) =
      lodge v (w.acquire growing).1 (w.acquire growing).2.2 := by
  rcases hAcquire : w.acquire growing with ⟨refusal | site, seen, u⟩
  · rcases hDrop : Stored.drop refusal.isFault v u.env with ⟨_ | fault, rest, env⟩ <;>
      simp only [construct, lodge, hAcquire, hDrop]
  · simp only [construct, lodge, hAcquire, idle]

theorem insert_eq (v : α) (w : Host α σ) :
    w.insert v = lodge v (w.acquire idle).1 (w.acquire idle).2.2 :=
  construct_idle v idle w

end Host
end TaskMemory

import TaskMemory.Pool.Basic

/-!
Pools in use. A host keeps a pool, its environment and a state of its own. Three moments of the
pool's work are open to user code, which may work on the same pool: while the block of a new slab
is being obtained, while a value is being built in its claimed slot, and inside the drop of a
value. Each takes such code as a function on the host. `acquire`, `construct`, `destroy` and `take`
are the operations on a pool with these openings.
-/
namespace TaskMemory

/-- A pool, the environment it allocates from, and the state of the code that uses it. -/
structure Host (α σ : Type) where
  pool : Pool α
  env : Environment
  state : σ

/-- The outcome of a construction: the handle of the new value, and what the user code that ran on
the way returned, as far as it ran. -/
structure Construction (β γ : Type) where
  made : Except Refusal Handle
  /-- What ran while a block was obtained. -/
  growing : Option β
  /-- What ran while the value was built. -/
  building : Option γ

namespace Host

variable {α σ β γ : Type} [Stored α]

def idle (w : Host α σ) : Unit × Host α σ := ((), w)

/-- Come up with a slot: a free one, or the first one of a new slab. -/
def acquire (growing : Host α σ → β × Host α σ) (w : Host α σ) :
    Except Refusal Place × Option β × Host α σ :=
  match w.pool.vacancy? with
  | some found =>
    match w.pool.claim found with
    | (site, pool) => (site, none, { w with pool })
  | none =>
    if w.pool.atLimit then
      (.error (.noSlot w.pool.exhausted), none,
        { w with env := w.env.raise (.poolExhausted w.pool.codec.maxSlabs) })
    else
      match growing w with
      | (seen, w) =>
        match w.pool.extend w.env with
        | (site, pool, env) => (site, some seen, { w with pool, env })

/-- Build a value in a slot of the pool. A value that does not get there is dropped: without a slot
at once, and after a failure of the code that builds it while that fault is under way, in which case
the slot becomes free again. -/
def construct (v : α) (growing : Host α σ → β × Host α σ) (building : Host α σ → γ × Host α σ)
    (failure : Option Fault) (w : Host α σ) : Construction β γ × Host α σ :=
  match w.acquire growing with
  | (.error refusal, grown, w) =>
    match Stored.drop refusal.isFault v w.env with
    | (none, _, env) => (⟨.error refusal, grown, none⟩, { w with env })
    | (some fault, _, env) => (⟨.error (.fault fault), grown, none⟩, { w with env })
  | (.ok site, grown, w) =>
    match building w with
    | (built, w) =>
      match failure with
      | some fault =>
        (⟨.error (.fault fault), grown, some built⟩,
          { w with pool := w.pool.reclaim site, env := (Stored.drop true v w.env).2.2 })
      | none =>
        let handle := w.pool.handle site
        let event := Event.constructed site.slab.toUInt32 site.offset.toUInt32 handle
        (⟨.ok handle, grown, some built⟩,
          { w with pool := w.pool.publish site v, env := w.env.raise event })

def insert (v : α) (w : Host α σ) : Except Refusal Handle × Host α σ :=
  match w.construct v idle idle none with
  | (done, w) => (done.made, w)

def recycle (site : Place) (w : Host α σ) : Except Fault Unit × Host α σ :=
  match w.pool.recycle site with
  | .ok pool => (.ok (), { w with pool })
  | .error fault => (.error fault, w)

/-- Drop the value behind a handle and give its slot back. A drop that ends in a fault leaves the
slot as it is: not usable, and not free either. -/
def destroy (h : Handle) (dropping : Host α σ → β × Host α σ) (w : Host α σ) :
    Except Fault Unit × Option β × Host α σ :=
  if w.pool.hasSlab h then
    let site := w.pool.place h
    match (w.pool.slot? site).bind Slot.read? with
    | none =>
      match w.recycle site with
      | (done, w) => (done, none, w)
    | some v =>
      let begun : Host α σ :=
        { w with pool := w.pool.update site Slot.retire, env := Stored.beginDrop v w.env }
      match if Stored.runsCode α then
          (match dropping begun with | (seen, w) => (some seen, w)) else (none, begun) with
      | (seen, w) =>
        match Stored.endDrop false v w.env with
        | (some fault, rest, env) =>
          (.error fault, seen, { w with pool := w.pool.update site (Slot.write rest), env })
        | (none, _, env) =>
          match ({ w with env } : Host α σ).recycle site with
          | (done, w) => (done, seen, w)
  else (.error (w.pool.missingSlab h), none, w)

/-- Drop the value behind a handle and give its slot back. -/
def remove (h : Handle) (w : Host α σ) : Except Fault Unit × Host α σ :=
  match w.destroy h idle with
  | (done, _, w) => (done, w)

/-- The value behind a handle, if it is one that can be used. -/
def get? (h : Handle) (w : Host α σ) : Except Fault (Option α) :=
  if w.pool.hasSlab h then .ok (w.pool.value? (w.pool.place h))
  else .error (w.pool.missingSlab h)

def set (h : Handle) (v : α) (w : Host α σ) : Host α σ :=
  { w with pool := w.pool.update (w.pool.place h) (Slot.write v) }

/-- Change the value behind a handle in place, if it is one that can be used; the answer is the value
before the change. -/
def edit (h : Handle) (change : α → α) (w : Host α σ) : Except Fault (Option α) × Host α σ :=
  match w.get? h with
  | .ok (some v) => (.ok (some v), w.set h (change v))
  | answer => (answer, w)

/-- Move the value behind a handle out, undropped, and give its slot back. -/
def take (h : Handle) (w : Host α σ) : Except Fault (Option α) × Host α σ :=
  match w.get? h with
  | .ok (some v) =>
    match w.recycle (w.pool.place h) with
    | (.ok (), w) =>
      (.ok (some v), { w with pool := w.pool.update (w.pool.place h) Slot.retire })
    | (.error fault, w) => (.error fault, w)
  | answer => (answer, w)

end Host
end TaskMemory

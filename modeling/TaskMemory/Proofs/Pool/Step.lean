import TaskMemory.Proofs.Pool.Effect
import TaskMemory.Proofs.Pool.Program
import TaskMemory.Proofs.Pool.Tenancy

/-!
The atomic steps of a pool. A step happens between two points at which user code can run, so every
run, with all that is nested in it, is a sequence of steps. `Step` says all that a step can do to
the pool and the book, and which effects it has. `Moment.seats` reads off the book who has which
slot.
-/
namespace TaskMemory.Pool

variable {α : Type}

/-- A pool, the book, and the slots of the constructions under way, the latest one first. -/
structure Moment (α : Type) where
  pool : Pool α
  book : Book α
  claims : List Place

/-- The block of the directory, if it has one. -/
def directoryBlock (p : Pool α) : List Layout :=
  if p.directory.capacity = 0 then [] else [directoryEntry.array p.directory.capacity]

/-- What the directory does to make room for a further slab. -/
def growth (p : Pool α) : List (Effect α) :=
  if p.directory.size = p.directory.capacity then
    .obtain (directoryEntry.array (Table.nextCapacity p.directory.capacity)) ::
      p.directoryBlock.map .giveBack
  else []

def blocks [Stored α] (p : Pool α) : Multiset Layout :=
  Multiset.replicate p.slabCount p.slabStorage + p.directoryBlock

/-- All whose slots are neither free nor claimed. -/
def Book.held (b : Book α) : List (Holding α) := b.contents ++ b.closing ++ b.spent

/-- The tenants of the values in the book. -/
def Book.seats (b : Book α) (place : Handle → Place) : List (Seat α) :=
  b.contents.map (fun r => ⟨place r.handle, .value r.value⟩) ++
    (b.closing.map (fun r => ⟨place r.handle, .leaving⟩) ++
      b.spent.map (fun r => ⟨place r.handle, .rest r.value⟩))

namespace Book

variable {b : Book α} {r : Holding α} (place : Handle → Place)

theorem contents_perm {h : Handle} (hFind : b.find? h = some r) :
    r.handle = h ∧ b.contents.Perm (r :: b.without h) := by
  obtain ⟨hMatch, hPerm⟩ := perm_of_find? hFind
  exact ⟨of_decide_eq_true hMatch, hPerm⟩

/-- A value that is found has a seat in its slot. -/
theorem seats_perm (hFind : b.find? r.handle = some r) :
    (b.seats place).Perm (⟨place r.handle, .value r.value⟩ :: (b.handOut r).seats place) :=
  ((contents_perm hFind).2.map _).append_right _

/-- A value that is entered takes a seat. -/
theorem seats_lodge (b : Book α) (h : Handle) (v : α) :
    (⟨place h, .value v⟩ :: b.seats place).Perm ((b.lodge h v).seats place) := by
  simp only [seats, lodge, List.map_append, List.map_cons, List.map_nil, List.append_assoc]
  exact List.perm_middle.symm

/-- A changed value keeps its seat. -/
theorem seats_store (b : Book α) (r : Holding α) (v : α) :
    (⟨place r.handle, .value v⟩ :: (b.handOut r).seats place).Perm ((b.store r v).seats place) := by
  simp only [seats, handOut, store, List.map_append, List.map_cons, List.map_nil,
    List.append_assoc]
  exact List.perm_middle.symm

/-- A value whose drop begins keeps its seat as one that is leaving. -/
theorem seats_close (b : Book α) (r : Holding α) :
    (⟨place r.handle, .leaving⟩ :: (b.handOut r).seats place).Perm ((b.close r).seats place) := by
  simp only [seats, handOut, close, List.map_cons, List.cons_append]
  exact List.perm_middle.symm

/-- A value whose drop has ended has left its seat. -/
theorem seats_settle {closing : List (Holding α)} (h : b.closing = r :: closing) :
    (b.seats place).Perm (⟨place r.handle, .leaving⟩ :: b.settle.seats place) := by
  simp only [seats, settle, h, List.map_cons, List.cons_append, List.tail_cons]
  exact List.perm_middle

/-- What is left after a fault keeps the seat. -/
theorem seats_spoil (b : Book α) (rest : Holding α) :
    (⟨place rest.handle, .rest rest.value⟩ :: b.settle.seats place).Perm
      ((b.spoil rest).seats place) := by
  simp only [seats, settle, spoil, List.map_append, List.map_cons, List.map_nil]
  rw [← List.append_assoc, ← List.append_assoc, ← List.append_assoc]
  exact (List.perm_append_singleton _ _).symm

end Book

def Moment.seats (m : Moment α) : List (Seat α) :=
  m.claims.map (⟨·, .claim⟩) ++ m.book.seats m.pool.place

/-- The slots that have tenants are those that are claimed or held. -/
theorem Moment.sites_eq (m : Moment α) : Seat.sites m.seats =
    m.claims ++ m.book.held.map fun r => m.pool.place r.handle := by
  simp [Seat.sites, Moment.seats, Book.seats, Book.held, Function.comp_def]

/-- A slot is taken by a construction or by a value that is held. -/
theorem Moment.mem_sites_iff (m : Moment α) (site : Place) : site ∈ Seat.sites m.seats ↔
    site ∈ m.claims ∨ ∃ r ∈ m.book.held, m.pool.place r.handle = site := by
  rw [m.sites_eq, List.mem_append, List.mem_map]

theorem Moment.mem_sites {m : Moment α} {r : Holding α} (h : r ∈ m.book.contents) :
    m.pool.place r.handle ∈ Seat.sites m.seats :=
  List.mem_map_of_mem (List.mem_append_right _ (List.mem_append_left _ (List.mem_map_of_mem h)))

variable [Stored α]

/-- What can happen between two points at which user code can run. -/
inductive Step : Moment α → List (Effect α) → Moment α → Prop where
  /-- The block of a new slab is obtained and turns out not to be needed. -/
  | probe (m : Moment α) :
      Step m [.obtain m.pool.slabStorage, .giveBack m.pool.slabStorage] m
  | announce (m : Moment α) (event : Event) : Step m [.raise event] m
  | claim {p : Pool α} {b : Book α} {claims : List Place} {site : Place}
      (h : p.vacancy? = some site) :
      Step ⟨p, b, claims⟩ [] ⟨p.mapSlab site.slab Slab.unlink, b.enter, site :: claims⟩
  /-- A construction gets the first slot of a new slab. -/
  | append {p : Pool α} {b : Book α} {claims : List Place}
      (hFull : p.vacancy? = none) (hRoom : p.atLimit = false) :
      Step ⟨p, b, claims⟩ (.obtain p.slabStorage :: p.growth)
        ⟨p.append, b.enter, ⟨p.slabCount, 0⟩ :: claims⟩
  /-- A construction breaks off and loses its slot. -/
  | reclaim {p : Pool α} {b : Book α} {claims : List Place} {site : Place} :
      Step ⟨p, b, site :: claims⟩ [] ⟨p.reclaim site, b.leave, claims⟩
  /-- A construction puts its value into its slot. -/
  | publish {p : Pool α} {b : Book α} {claims : List Place} {site : Place} (v : α) :
      Step ⟨p, b, site :: claims⟩ []
        ⟨p.publish site v, b.leave.lodge (p.handle site) v, claims⟩
  /-- The value of a construction that has broken off is dropped. -/
  | reject {p : Pool α} {b : Book α} {claims : List Place} (unwinding : Bool) (v : α) :
      Step ⟨p, b, claims⟩ (Effect.drop unwinding v) ⟨p, b.refuse v, claims⟩
  | edit {p : Pool α} {b : Book α} {claims : List Place} {r : Holding α}
      (h : b.find? r.handle = some r) (v : α) :
      Step ⟨p, b, claims⟩ [] ⟨p.update (p.place r.handle) (Slot.write v), b.store r v, claims⟩
  | take {p : Pool α} {b : Book α} {claims : List Place} {r : Holding α}
      (h : b.find? r.handle = some r) :
      Step ⟨p, b, claims⟩ []
        ⟨(p.recycled (p.place r.handle)).update (p.place r.handle) Slot.retire, b.handOut r,
          claims⟩
  | close {p : Pool α} {b : Book α} {claims : List Place} {r : Holding α}
      (h : b.find? r.handle = some r) :
      Step ⟨p, b, claims⟩ [.beginDrop r.value]
        ⟨p.update (p.place r.handle) Slot.retire, b.close r, claims⟩
  /-- The drop of a value ends, and its slot is given back. -/
  | settle {p : Pool α} {b : Book α} {claims : List Place} {r : Holding α}
      {closing : List (Holding α)} (h : b.closing = r :: closing) :
      Step ⟨p, b, claims⟩ [.endDrop false r.value]
        ⟨p.recycled (p.place r.handle), b.settle, claims⟩
  /-- The drop of a value ends in a fault; its slot is not given back. -/
  | spoil {p : Pool α} {b : Book α} {claims : List Place} {r : Holding α}
      {closing : List (Holding α)} (h : b.closing = r :: closing) (rest : α) :
      Step ⟨p, b, claims⟩ [.endDrop false r.value]
        ⟨p.update (p.place r.handle) (Slot.write rest), b.spoil { r with value := rest }, claims⟩

/-- A sequence of steps with all its effects. -/
inductive Steps : Moment α → List (Effect α) → Moment α → Prop where
  | zero (m : Moment α) : Steps m [] m
  | succ {m m' m'' : Moment α} {es es' : List (Effect α)}
      (prior : Steps m es m') (last : Step m' es' m'') : Steps m (es ++ es') m''

variable {m m' m'' : Moment α} {es es' : List (Effect α)} {r : Holding α}

theorem Step.steps (step : Step m es m') : Steps m es m' := Steps.succ (Steps.zero m) step

theorem Steps.trans (left : Steps m es m') (right : Steps m' es' m'') :
    Steps m (es ++ es') m'' := by
  induction right with
  | zero => simpa using left
  | succ prior last ih => simpa [List.append_assoc] using Steps.succ ih last

/-- The layout of the handles stays the same. -/
theorem Step.codec_eq (step : Step m es m') : m'.pool.codec = m.pool.codec := by
  cases step <;> rfl

theorem Steps.codec_eq (steps : Steps m es m') : m'.pool.codec = m.pool.codec := by
  induction steps with
  | zero => rfl
  | succ prior last ih => exact last.codec_eq.trans ih

end TaskMemory.Pool

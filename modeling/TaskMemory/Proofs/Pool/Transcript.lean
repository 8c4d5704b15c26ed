import TaskMemory.Proofs.Pool.Abreast
import TaskMemory.Proofs.Pool.Overtaking

/-!
Transcripts of runs. What a pool reports in the log is written down together with what the code that
uses the pool does and sees: how each construction ends, when a destruction begins and when it has
given the slot back, what is taken, and everything that is looked at. A transcript is faithful if it
is put together of a few phrases, each of which says when it may come next. Whoever has only the
reports and knows of the destructions can tell from a faithful transcript which handles are out.
-/
namespace TaskMemory

/-- Whether an event is one that pools raise. -/
def Event.ofPool : Event → Bool
  | .slabCreated .. | .constructed .. | .poolExhausted _ => true
  | _ => false

namespace Environment

/-- What pools have reported, oldest first. -/
def reports (env : Environment) : List Event := env.events.toList.filter Event.ofPool

/-- An event of the pool is a report. -/
theorem reports_raise (env : Environment) {event : Event} (h : event.ofPool = true) :
    (env.raise event).reports = env.reports ++ [event] := by
  simp [reports, raise, List.filter_append, h]

@[simp] theorem reports_allocate (env : Environment) (block : Layout) :
    (env.allocate block).reports = env.reports := by
  rw [allocate]
  split
  · rfl
  · have hEvents := Resource.events_allocate env.resource block
    have hNone : (env.resource.allocate block).2.2.filter Event.ofPool = [] :=
      List.filter_eq_nil_iff.mpr fun e hMem => by simp [hEvents e hMem, Event.ofPool]
    simp [reports, hNone]

@[simp] theorem reports_release (env : Environment) (block : Layout) :
    (env.release block).reports = env.reports := by
  rw [release]
  split
  · rfl
  · have hEvents := Resource.events_deallocate env.resource block
    have hNone : (env.resource.deallocate block).2.filter Event.ofPool = [] :=
      List.filter_eq_nil_iff.mpr fun e hMem => by simp [hEvents e hMem, Event.ofPool]
    simp [reports, hNone]

end Environment

/-- Making room in the directory is nothing that a pool reports. -/
theorem Pool.reports_growth {α : Type} [Stored α] (p : Pool α) (env : Environment) :
    (Effect.replay p.growth env).reports = env.reports := by
  by_cases hFull : p.directory.size = p.directory.capacity
  · by_cases hEmpty : p.directory.capacity = 0
    · simp [growth, directoryBlock, hFull, hEmpty, Effect.replay, Effect.act]
    · simp [growth, directoryBlock, hFull, hEmpty, Effect.replay, Effect.act]
  · simp [growth, hFull, Effect.replay]

namespace Pool

/-- What a transcript says. -/
inductive Entry (α : Type) where
  /-- A pool has reported something. -/
  | heard (event : Event)
  /-- The construction of a value has ended. -/
  | ended (v : α) (outcome : Construction Unit Unit)
  /-- The destruction of a value begins. -/
  | closed (h : Handle)
  /-- A destruction has given the slot back. -/
  | settled (h : Handle)
  | taken (h : Handle)
  | looked (view : Host α (Book α))

section Reading

variable {α : Type}

def Entry.event? : Entry α → Option Event
  | .heard event => some event
  | _ => none

/-- The slab that is reported to be new. -/
def Entry.slab? : Entry α → Option Nat
  | .heard (.slabCreated slab _ _) => some slab.toNat
  | _ => none

/-- The handle that is reported of a value. -/
def Entry.constructed? : Entry α → Option Handle
  | .heard (.constructed _ _ h) => some h
  | _ => none

/-- The handle that a construction has returned. -/
def Entry.returned? : Entry α → Option Handle
  | .ended _ outcome => outcome.made.toOption
  | _ => none

/-- The largest number of slabs, where it is reported that no slot is left. -/
def Entry.exhausted? : Entry α → Option UInt64
  | .heard (.poolExhausted maxSlabs) => some maxSlabs
  | _ => none

/-- The error that a construction has returned for want of a slot. -/
def Entry.shortage? : Entry α → Option PoolError
  | .ended _ ⟨.error (.noSlot cause), _, _⟩ => some cause
  | _ => none

def Entry.view? : Entry α → Option (Host α (Book α))
  | .looked view => some view
  | _ => none

/-- The handle that cannot be used any more. -/
def Entry.unusable? : Entry α → Option Handle
  | .closed h | .taken h => some h
  | _ => none

/-- The handle whose slot is given back. -/
def Entry.vacated? : Entry α → Option Handle
  | .settled h | .taken h => some h
  | _ => none

/-- A replay adds the handle of every value that is reported, and strikes one out where it
leaves. -/
def Entry.replay (leaves? : Entry α → Option Handle) (out : List Handle) (entry : Entry α) :
    List Handle :=
  match leaves? entry, entry.constructed? with
  | some h, _ => out.erase h
  | none, some h => out ++ [h]
  | none, none => out

/-- The handles that a replay of the reports comes to. -/
def standing (leaves? : Entry α → Option Handle) (t : List (Entry α)) : List Handle :=
  t.foldl (Entry.replay leaves?) []

/-- The handles that can be used after a transcript. -/
def usable (t : List (Entry α)) : List Handle := standing Entry.unusable? t

/-- The handles whose slots have not been given back after a transcript. -/
def unreturned (t : List (Entry α)) : List Handle := standing Entry.vacated? t

/-- The slabs that are reported, in that order. -/
def created (t : List (Entry α)) : List Nat := t.filterMap Entry.slab?

end Reading

variable {α : Type} [Stored α]

/-- The phrases of a transcript. Each of them says when it may come next; the pool is the one that
nothing has happened to yet. -/
inductive Phrase (p : Pool α) (past : List (Entry α)) : List (Entry α) → Prop where
  /-- The slabs are reported by their indices, in order. -/
  | created {slab : UInt32} (hIndex : slab.toNat = (created past).length) :
      Phrase p past [.heard (.slabCreated slab p.codec.slabCapacity p.slabStorage.size)]
  /-- A value is reported right before its construction returns, with the handle that is returned.
  Its slab has been reported before, and its slot is not one that somebody has. -/
  | constructed {slab offset : UInt32} {v : α} {outcome : Construction Unit Unit}
      (hSlab : slab.toNat ∈ Pool.created past)
      (hFresh : p.place (p.codec.encode slab offset) ∉ (unreturned past).map p.place)
      (hMade : outcome.made = .ok (p.codec.encode slab offset)) :
      Phrase p past [.heard (.constructed slab offset (p.codec.encode slab offset)),
        .ended v outcome]
  /-- That the pool is exhausted is reported right before a construction returns that error, unless
  the drop of its value ends in a fault. No code has run to build the value. -/
  | exhausted {v : α} {outcome : Construction Unit Unit}
      (hMade : outcome.made = .error (.noSlot p.exhausted) ∨ ∃ env fault,
        (Stored.drop false v env).1 = some fault ∧ outcome.made = .error (.fault fault))
      (hBuilding : outcome.building = none) :
      Phrase p past [.heard (.poolExhausted p.codec.maxSlabs), .ended v outcome]
  /-- A construction whose code breaks off reports nothing. -/
  | unwound {v : α} {outcome : Construction Unit Unit} {fault : Fault}
      (hMade : outcome.made = .error (.fault fault)) (hBuilding : outcome.building = some ()) :
      Phrase p past [.ended v outcome]
  | closed {h : Handle} (hUsable : h ∈ usable past) : Phrase p past [.closed h]
  | settled {h : Handle} (hHeld : h ∈ unreturned past) : Phrase p past [.settled h]
  | taken {h : Handle} (hUsable : h ∈ usable past) : Phrase p past [.taken h]
  /-- Whenever a program looks, the reports tell how many slabs there are, which handles can be used
  and which slots have not been given back. -/
  | looked {view : Host α (Book α)} (hSlabs : Pool.created past = List.range view.pool.slabCount)
      (hUsable : (usable past).Perm (view.state.contents.map Holding.handle))
      (hHeld : (unreturned past).Perm (view.state.held.map Holding.handle)) :
      Phrase p past [.looked view]

/-- A transcript that consists of phrases. -/
inductive Faithful (p : Pool α) : List (Entry α) → Prop where
  | nil : Faithful p []
  | append {past phrase : List (Entry α)} (faithful : Faithful p past)
      (next : Phrase p past phrase) : Faithful p (past ++ phrase)

section Telling

variable {p : Pool α} {past phrase t : List (Entry α)}

/-- In one phrase a value is reported as constructed if its handle is returned. -/
theorem Phrase.constructed_eq_returned (next : Phrase p past phrase) :
    phrase.filterMap Entry.constructed? = phrase.filterMap Entry.returned? := by
  cases next with
  | @constructed _ _ _ outcome _ _ hMade =>
      obtain ⟨made, growing, building⟩ := outcome
      obtain rfl : made = _ := hMade
      rfl
  | @exhausted _ outcome hMade _ =>
      obtain ⟨made, growing, building⟩ := outcome
      rcases hMade with rfl | ⟨_, _, -, rfl⟩ <;> rfl
  | @unwound _ outcome _ hMade _ =>
      obtain ⟨made, growing, building⟩ := outcome
      obtain rfl : made = _ := hMade
      rfl
  | created | closed | settled | taken | looked => rfl

/-- The handles that are reported are those that constructions return, in the same order. -/
theorem Faithful.constructed_eq_returned (faithful : Faithful p t) :
    t.filterMap Entry.constructed? = t.filterMap Entry.returned? := by
  induction faithful with
  | nil => rfl
  | append _ next ih =>
      rw [List.filterMap_append, List.filterMap_append, ih, next.constructed_eq_returned]

/-- No value whose construction is told of has a drop that ends in a fault. -/
def Dependable (t : List (Entry α)) : Prop :=
  ∀ v outcome, .ended v outcome ∈ t → ∀ env, (Stored.drop false v env).1 = none

/-- In one phrase the pool is reported as exhausted if a construction is refused for it. -/
theorem Phrase.exhausted_eq_shortage (next : Phrase p past phrase)
    (dependable : Dependable phrase) :
    (phrase.filterMap Entry.exhausted?).map PoolError.exhausted =
      phrase.filterMap Entry.shortage? := by
  cases next with
  | @constructed _ _ _ outcome _ _ hMade =>
      obtain ⟨made, growing, building⟩ := outcome
      obtain rfl : made = _ := hMade
      rfl
  | @exhausted v outcome hMade _ =>
      obtain ⟨made, growing, building⟩ := outcome
      rcases hMade with rfl | ⟨env, fault, hFault, -⟩
      · rfl
      · simp [dependable v _ (List.mem_cons_of_mem _ List.mem_cons_self) env] at hFault
  | @unwound _ outcome _ hMade _ =>
      obtain ⟨made, growing, building⟩ := outcome
      obtain rfl : made = _ := hMade
      rfl
  | created | closed | settled | taken | looked => rfl

/-- It is reported of every construction that returns the error, and of nothing else, that the pool
is exhausted. -/
theorem Faithful.exhausted_eq_shortage (faithful : Faithful p t) (dependable : Dependable t) :
    (t.filterMap Entry.exhausted?).map PoolError.exhausted = t.filterMap Entry.shortage? := by
  induction faithful with
  | nil => rfl
  | append _ next ih =>
      rw [List.filterMap_append, List.filterMap_append, List.map_append,
        ih fun v outcome hMem => dependable v outcome (List.mem_append_left _ hMem),
        next.exhausted_eq_shortage fun v outcome hMem =>
          dependable v outcome (List.mem_append_right _ hMem)]

end Telling

/-- What pools have reported from one moment to a later one. -/
def news (before after : Environment) : List (Entry α) :=
  (after.reports.drop before.reports.length).map .heard

/-- The part in which a construction comes to a slot or finds that there is none. -/
def Usage.seeking (growing : Usage α → Usage α) (inside : Usage α → List (Entry α))
    (w : Usage α) : List (Entry α) :=
  match Host.acquire (fun w => ((), growing w)) w with
  | (_, some (), u) => inside w ++ news (growing w).env u.env
  | (_, none, u) => news w.env u.env

/-- The part in which a value is built in its slot and put there, if the code that builds it does
not break off. -/
def Usage.placing (v : α) (growing building : Usage α → Usage α) (failure : Option Fault)
    (inside : Usage α → List (Entry α)) (w : Usage α) : List (Entry α) :=
  match Host.acquire (fun w => ((), growing w)) w, failure with
  | (.ok _, _, u), none => inside (record Book.enter u) ++
      news (building (record Book.enter u)).env (w.make v growing building none).2.env
  | (.ok _, _, u), some _ => inside (record Book.enter u)
  | (.error _, _, _), _ => []

/-- What a construction adds to a transcript. -/
def Usage.constructing (v : α) (growing building : Usage α → Usage α) (failure : Option Fault)
    (inGrowing inBuilding : Usage α → List (Entry α)) (w : Usage α) : List (Entry α) :=
  w.seeking growing inGrowing ++ w.placing v growing building failure inBuilding ++
    [.ended v (w.make v growing building failure).1]

/-- What a destruction adds to a transcript. -/
def Usage.destroying (dropping : Usage α → Usage α) (inside : Usage α → List (Entry α))
    (r : Holding α) (w : Usage α) : List (Entry α) :=
  .closed r.handle :: ((if Stored.runsCode α then inside (w.begun r) else []) ++
    match (Host.destroy r.handle (fun w => ((), dropping w)) (w.close r)).1 with
    | .ok () => [.settled r.handle]
    | .error _ => [])

/-- What work through a handle adds to a transcript, if the handle can be used. -/
def Usage.telling (h : Handle) (tell : Holding α → Usage α → List (Entry α)) (w : Usage α) :
    List (Entry α) :=
  match w.state.book.find? h with
  | some r => tell r w
  | none => []

/-- The transcript of a run. -/
def Program.transcript : Program α → Usage α → List (Entry α)
  | .done, w => [.looked w.now]
  | .construct v growing building failure rest, w =>
    .looked w.now :: (w.look.constructing v growing.run building.run failure growing.transcript
        building.transcript ++
      rest.transcript (w.look.construct v growing.run building.run failure))
  | .get h rest, w => .looked w.now :: rest.transcript (w.look.through h Usage.get)
  | .edit h change rest, w =>
    .looked w.now :: rest.transcript (w.look.through h (Usage.edit · change))
  | .destroy h dropping rest, w =>
    .looked w.now :: (w.look.telling h (Usage.destroying dropping.run dropping.transcript) ++
      rest.transcript (w.look.through h (Usage.destroy · dropping.run)))
  | .take h rest, w =>
    .looked w.now :: (w.look.telling h (fun r _ => [.taken r.handle]) ++
      rest.transcript (w.look.through h Usage.take))

end Pool
end TaskMemory

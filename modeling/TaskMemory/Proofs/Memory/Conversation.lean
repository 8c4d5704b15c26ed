import Mathlib.Algebra.BigOperators.Group.List.Basic
import Mathlib.Algebra.GroupWithZero.Nat
import Mathlib.Data.List.Sigma
import Mathlib.Order.Bounds.Basic
import TaskMemory.Memory.Blocks
import TaskMemory.Proofs.Memory.Layers

/-!
A client that asks for blocks and returns them, over layers of any kind in any order around memory
that may refuse. What the counting layers say is read off the client's record of its requests and
their answers, and so is what each tracing layer raises. A client that cannot do without a block
breaks off at the first refusal, so its record ends there.
-/
namespace TaskMemory.Blocks

/-- A request of a client with its answer, and the events raised meanwhile. -/
structure Exchange where
  request : Request
  answer : Answer
  events : List Event

/-- The record of requests to a client that has seen all events so far. -/
def State.record (s : State) (requests : List Request) : List Exchange :=
  List.zipWith (fun request report => ⟨request, report.1, report.2.events.toList⟩) requests
    (s.run s.env.mark requests).1

/-- A client over new layers, which has no blocks yet. -/
def opening (layers : List Layer) (policy : Policy) : State :=
  { env := { resource := Layer.stack layers (.ofPolicy policy) } }

namespace Exchange

/-- The block that is granted, be it one without bytes. -/
def granted? (e : Exchange) : Option Layout :=
  match e.request, e.answer with
  | .allocate size align, .block | .allocate size align, .dangling _ => some ⟨size, align⟩
  | _, _ => none

/-- The number of the block that is returned. -/
def returned? (e : Exchange) : Option Nat :=
  match e.request, e.answer with
  | .free index, .freed => some index
  | _, _ => none

/-- The event of a tracing layer with these layers around it and these inside. -/
def heard? (outer inside : List Layer) (e : Exchange) : Option Event :=
  match e.request with
  | .allocate .. => e.events[Layer.voices inside]?
  | .free _ => e.events[Layer.voices outer]?
  | .describe => none

end Exchange

variable {record : List Exchange} {e : Exchange}

/-- The blocks granted so far, in the order of their numbers. -/
def granted (record : List Exchange) : List Layout := record.filterMap Exchange.granted?

/-- The numbers of the blocks that have been returned. -/
def returned (record : List Exchange) : List Nat := record.filterMap Exchange.returned?

def returnedBlocks (record : List Exchange) : List Layout :=
  (returned record).filterMap fun i => (granted record)[i]?

/-- The blocks that are still out, with their numbers. -/
def blocksOut (record : List Exchange) : List (Layout × Nat) :=
  (granted record).zipIdx.filter fun b => b.2 ∉ returned record

def bytesOut (record : List Exchange) : Nat := ((blocksOut record).map fun b => b.1.size).sum

/-- The number of requests that reached the memory. -/
def asked (record : List Exchange) : Nat :=
  record.countP fun e => e.answer = .block ∨ e.answer = .refused

/-- What a tracing layer has raised, refused requests left out. -/
def raised (outer inside : List Layer) (record : List Exchange) : List Event :=
  (record.filter fun e => e.answer ≠ .refused).filterMap (Exchange.heard? outer inside)

/-- Enter an event into a ledger. -/
def enter (l : Ledger) : Event → Ledger
  | .allocated block => l.grant block.size
  | .deallocated block => l.giveBack block.size
  | _ => l

/-- The bytes that were out right after a block was granted, at any time, or at the start. -/
def heights (record : List Exchange) : Set Nat :=
  {n | n = 0 ∨ ∃ earlier e, earlier ++ [e] <+: record ∧ e.answer = .block ∧
    n = bytesOut (earlier ++ [e])}

/-- What a ledger says of a record. Blocks without bytes do not count. -/
structure Sums (l : Ledger) (record : List Exchange) : Prop where
  allocations : l.allocations = (granted record).countP fun block => block.size ≠ 0
  deallocations : l.deallocations = (returnedBlocks record).countP fun block => block.size ≠ 0
  liveBytes : l.liveBytes = bytesOut record
  peakBytes : IsGreatest (heights record) l.peakBytes

theorem granted_concat (record : List Exchange) (e : Exchange) :
    granted (record ++ [e]) = granted record ++ e.granted?.toList := by
  rw [granted, List.filterMap_append]
  cases hGranted : e.granted? <;> simp [granted, hGranted]

theorem returned_concat (record : List Exchange) (e : Exchange) :
    returned (record ++ [e]) = returned record ++ e.returned?.toList := by
  rw [returned, List.filterMap_append]
  cases hReturned : e.returned? <;> simp [returned, hReturned]

/-- The numbers that have been returned are numbers of blocks, each returned once. -/
structure Proper (record : List Exchange) : Prop where
  lt_length : ∀ i ∈ returned record, i < (granted record).length
  nodup : (returned record).Nodup

/-- The block with this number is out. -/
structure Out (record : List Exchange) (i : Nat) (block : Layout) : Prop where
  get : (granted record)[i]? = some block
  here : i ∉ returned record

/-- A block that is out has been granted. -/
theorem Out.lt_length {i : Nat} {block : Layout} (out : Out record i block) :
    i < (granted record).length :=
  (List.getElem?_eq_some_iff.mp out.get).1

theorem blocksOut_of_none (hGranted : e.granted? = none) (hReturned : e.returned? = none) :
    blocksOut (record ++ [e]) = blocksOut record := by
  rw [blocksOut, granted_concat, returned_concat, hGranted, hReturned]
  simp [blocksOut]

/-- A block that is granted is out from then on. -/
theorem blocksOut_of_granted (proper : Proper record) {block : Layout}
    (hGranted : e.granted? = some block) (hReturned : e.returned? = none) :
    blocksOut (record ++ [e]) = blocksOut record ++ [(block, (granted record).length)] := by
  have hNew : (granted record).length ∉ returned record := fun hMem =>
    Nat.lt_irrefl _ (proper.lt_length _ hMem)
  rw [blocksOut, granted_concat, returned_concat, hGranted, hReturned]
  simp [blocksOut, List.zipIdx_append, hNew]

/-- A block that is returned is taken out of those that are out. -/
theorem blocksOut_of_returned {i : Nat} {block : Layout} (out : Out record i block)
    (hGranted : e.granted? = none) (hReturned : e.returned? = some i) :
    ((block, i) :: blocksOut (record ++ [e])).Perm (blocksOut record) := by
  have hMem : (block, i) ∈ blocksOut record :=
    List.mem_filter.mpr ⟨List.mk_mem_zipIdx_iff_getElem?.mpr out.get, decide_eq_true out.here⟩
  have hNodup : (blocksOut record).Nodup :=
    (List.Nodup.of_map Prod.snd (List.nodup_zipIdx_map_snd _)).filter _
  have hErase : blocksOut (record ++ [e]) = (blocksOut record).erase (block, i) := by
    rw [hNodup.erase_eq_filter, blocksOut, granted_concat, returned_concat, hGranted, hReturned,
      blocksOut, List.filter_filter]
    simp only [Option.toList_none, List.append_nil, Option.toList_some]
    refine List.filter_congr fun b hb => ?_
    have hAt : (granted record)[b.2]? = some b.1 := List.mk_mem_zipIdx_iff_getElem?.mp hb
    -- The number says which block it is.
    have hSame : b = (block, i) ↔ b.2 = i := by
      constructor
      · exact congrArg Prod.snd
      · rintro rfl
        exact Prod.ext (Option.some.inj (hAt.symm.trans out.get)) rfl
    by_cases hHere : b.2 = i
    · simp [hSame.mpr hHere]
    · have hOther : b ≠ (block, i) := fun hEq => hHere (hSame.mp hEq)
      simp [hHere, hOther]
  rw [hErase]
  exact (List.perm_cons_erase hMem).symm

theorem bytesOut_of_none (hGranted : e.granted? = none) (hReturned : e.returned? = none) :
    bytesOut (record ++ [e]) = bytesOut record := by
  rw [bytesOut, blocksOut_of_none hGranted hReturned, bytesOut]

theorem bytesOut_of_granted (proper : Proper record) {block : Layout}
    (hGranted : e.granted? = some block) (hReturned : e.returned? = none) :
    bytesOut (record ++ [e]) = bytesOut record + block.size := by
  rw [bytesOut, blocksOut_of_granted proper hGranted hReturned, List.map_append, List.sum_append]
  rfl

/-- The bytes of a returned block are not out any longer. -/
theorem bytesOut_of_returned {i : Nat} {block : Layout} (out : Out record i block)
    (hGranted : e.granted? = none) (hReturned : e.returned? = some i) :
    block.size + bytesOut (record ++ [e]) = bytesOut record :=
  ((blocksOut_of_returned out hGranted hReturned).map fun b : Layout × Nat => b.1.size).sum_eq

/-- A request with its answer and the events that are new afterwards. -/
def State.exchange (s : State) (request : Request) : Exchange :=
  ⟨request, (s.serve request).1, ((s.serve request).2.env.bulletin s.env.mark).events.toList⟩

theorem record_cons (s : State) (request : Request) (rest : List Request) :
    s.record (request :: rest) = s.exchange request :: (s.serve request).2.record rest :=
  rfl

/-- All that a request can come to. -/
inductive Deals (s : State) : Exchange → State → Prop
  | idle {request : Request} {answer : Answer}
      (hGranted : Exchange.granted? ⟨request, answer, []⟩ = none)
      (hReturned : Exchange.returned? ⟨request, answer, []⟩ = none)
      (hAnswer : answer ≠ .block ∧ answer ≠ .refused) : Deals s ⟨request, answer, []⟩ s
  | dangling (block : Layout) (hZero : block.size = 0) :
      Deals s ⟨.allocate block.size block.align, .dangling block.align, []⟩
        { s with blocks := s.blocks.push (some block) }
  | granted (block : Layout) {resource : Resource} {events : List Event} (hSize : block.size ≠ 0)
      (hAllocate : s.env.resource.allocate block = (true, resource, events)) :
      Deals s ⟨.allocate block.size block.align, .block, events⟩
        { env := { s.env with resource, events := s.env.events ++ events.toArray }
          blocks := s.blocks.push (some block) }
  | refused (block : Layout) {resource : Resource} {events : List Event} (hSize : block.size ≠ 0)
      (hAllocate : s.env.resource.allocate block = (false, resource, events)) :
      Deals s ⟨.allocate block.size block.align, .refused, events⟩
        { s with env := { s.env with resource, events := s.env.events ++ events.toArray } }
  | emptied {i : Nat} {block : Layout} (hOut : s.blocks[i]? = some (some block))
      (hZero : block.size = 0) :
      Deals s ⟨.free i, .freed, []⟩ { s with blocks := s.blocks.setIfInBounds i none }
  | returned {i : Nat} {block : Layout} {resource : Resource} {events : List Event}
      (hOut : s.blocks[i]? = some (some block)) (hSize : block.size ≠ 0)
      (hDeallocate : s.env.resource.deallocate block = (resource, events)) :
      Deals s ⟨.free i, .freed, events⟩
        { env := { s.env with resource, events := s.env.events ++ events.toArray }
          blocks := s.blocks.setIfInBounds i none }

theorem ofSizeAlign?_eq {size align : Nat} {block : Layout}
    (h : Layout.ofSizeAlign? size align = some block) : block = ⟨size, align⟩ := by
  rw [Layout.ofSizeAlign?] at h
  split at h
  · exact (Option.some.inj h).symm
  · cases h

theorem events_idle (env : Environment) : (env.bulletin env.mark).events.toList = [] := by
  simp [Environment.bulletin, Environment.mark]

theorem events_append (env : Environment) (resource : Resource) (events : List Event) :
    (({ env with resource, events := env.events ++ events.toArray } : Environment).bulletin
      env.mark).events.toList = events := by
  simp [Environment.bulletin, Environment.mark]

/-- Every request is dealt with in one of these ways. -/
theorem deals_exchange (s : State) (request : Request) :
    Deals s (s.exchange request) (s.serve request).2 := by
  cases request with
  | allocate size align =>
      rw [State.exchange, State.serve, State.allocate]
      cases hLayout : Layout.ofSizeAlign? size align with
      | none =>
          simp only [events_idle]
          exact .idle rfl rfl ⟨nofun, nofun⟩
      | some block =>
          obtain rfl := ofSizeAlign?_eq hLayout
          by_cases hZero : size = 0
          · simp only [if_pos hZero, events_idle]
            exact .dangling ⟨size, align⟩ hZero
          · rcases hAllocate : s.env.resource.allocate ⟨size, align⟩ with ⟨_ | _, resource, events⟩
            · simp only [if_neg hZero, hAllocate, events_append, Bool.false_eq_true, if_false]
              exact .refused ⟨size, align⟩ hZero hAllocate
            · simp only [if_neg hZero, hAllocate, events_append, if_true]
              exact .granted ⟨size, align⟩ hZero hAllocate
  | free i =>
      rw [State.exchange, State.serve, State.free]
      split
      · next block hOut =>
          rw [Environment.release]
          by_cases hZero : block.size = 0
          · simp only [if_pos hZero, events_idle]
            exact .emptied hOut hZero
          · rcases hDeallocate : s.env.resource.deallocate block with ⟨resource, events⟩
            simp only [if_neg hZero, events_append]
            exact .returned hOut hZero hDeallocate
      · simp only [events_idle]
        exact .idle rfl rfl ⟨nofun, nofun⟩
  | describe =>
      rw [State.exchange, State.serve]
      simp only [events_idle]
      exact .idle rfl rfl ⟨nofun, nofun⟩

end TaskMemory.Blocks

import TaskMemory.Proofs.Memory.Conversation

/-!
The accounts that the layers keep of a conversation. All counting layers keep one ledger, which is
the sums over the record; every tracing layer raises one event for each request that gets past the
client, from which the ledger can be recomputed; and the client gets the answers that it would get
without any layer.
-/
namespace TaskMemory.Blocks

variable {record : List Exchange} {e : Exchange} {l : Ledger} {block : Layout} {i : Nat}
  {layers : List Layer} {policy : Policy} {s s' : State} {request : Request} {answer : Answer}

/-- A block that is returned is one of those granted before, and has not been returned yet. -/
theorem Proper.concat (proper : Proper record)
    (hNew : ∀ i ∈ e.returned?, i < (granted record).length ∧ i ∉ returned record) :
    Proper (record ++ [e]) where
  lt_length := by
    rw [granted_concat, returned_concat]
    intro j hj
    have hLt : j < (granted record).length := by
      rcases List.mem_append.mp hj with hOld | hLast
      · exact proper.lt_length j hOld
      · exact (hNew j (Option.mem_toList.mp hLast)).1
    exact Nat.lt_of_lt_of_le hLt (List.length_append ▸ Nat.le_add_right ..)
  nodup := by
    rw [returned_concat, List.nodup_append]
    refine ⟨proper.nodup, ?_, ?_⟩
    · cases e.returned? with
      | none => exact List.nodup_nil
      | some i => exact List.nodup_singleton i
    · rintro j hj _ hLast rfl
      exact (hNew j (Option.mem_toList.mp hLast)).2 hj

/-- An exchange that gives a block back adds that block to those returned. -/
theorem returnedBlocks_concat (proper : Proper record)
    (hNew : ∀ i ∈ e.returned?, i < (granted record).length) :
    returnedBlocks (record ++ [e]) =
      returnedBlocks record ++ (e.returned?.bind fun i => (granted record)[i]?).toList := by
  have hKept : ∀ i < (granted record).length,
      (granted record ++ e.granted?.toList)[i]? = (granted record)[i]? := fun i hi =>
    List.getElem?_append_left hi
  rw [returnedBlocks, granted_concat, returned_concat, List.filterMap_append]
  congr 1
  · exact List.filterMap_congr fun i hi => hKept i (proper.lt_length i hi)
  · cases hLast : e.returned? with
    | none => rfl
    | some i =>
        have hHere := hKept i (hNew i hLast)
        cases hGet : (granted record)[i]? <;> simp [hHere, hGet]

/-- A granted block adds the height that it leads to, and nothing else adds one. -/
theorem heights_concat (record : List Exchange) (e : Exchange) :
    heights (record ++ [e]) =
      {n | e.answer = .block ∧ n = bytesOut (record ++ [e])} ∪ heights record := by
  ext n
  constructor
  · rintro (rfl | ⟨earlier, last, hPrefix, hLast, hHeight⟩)
    · exact .inr (.inl rfl)
    · rcases List.prefix_concat_iff.mp hPrefix with hWhole | hPrefix
      · obtain rfl : last = e := by simpa using (List.append_inj' hWhole rfl).2
        exact .inl ⟨hLast, hHeight.trans (congrArg bytesOut hWhole)⟩
      · exact .inr (.inr ⟨earlier, last, hPrefix, hLast, hHeight⟩)
  · rintro (⟨hAnswer, rfl⟩ | rfl | ⟨earlier, last, hPrefix, hLast, hHeight⟩)
    · exact .inr ⟨record, e, List.prefix_rfl, hAnswer, rfl⟩
    · exact .inl rfl
    · exact .inr ⟨earlier, last, hPrefix.trans (List.prefix_append ..), hLast, hHeight⟩

theorem heights_concat_of_ne (hAnswer : e.answer ≠ .block) :
    heights (record ++ [e]) = heights record := by
  rw [heights_concat]
  simp [hAnswer]

theorem heights_concat_of_eq (hAnswer : e.answer = .block) :
    heights (record ++ [e]) = insert (bytesOut (record ++ [e])) (heights record) := by
  ext n
  rw [heights_concat]
  simp [hAnswer]

theorem Sums.of_none (sums : Sums l record) (proper : Proper record)
    (hGranted : e.granted? = none) (hReturned : e.returned? = none) (hAnswer : e.answer ≠ .block) :
    Sums l (record ++ [e]) where
  allocations := by rw [granted_concat, hGranted, sums.allocations]; simp
  deallocations := by
    rw [returnedBlocks_concat proper (by simp [hReturned]), hReturned, sums.deallocations]
    simp
  liveBytes := by rw [bytesOut_of_none hGranted hReturned, sums.liveBytes]
  peakBytes := by rw [heights_concat_of_ne hAnswer]; exact sums.peakBytes

/-- A block without bytes is granted. -/
theorem Sums.of_empty (sums : Sums l record) (proper : Proper record) (hZero : block.size = 0)
    (hGranted : e.granted? = some block) (hReturned : e.returned? = none)
    (hAnswer : e.answer ≠ .block) : Sums l (record ++ [e]) where
  allocations := by rw [granted_concat, hGranted, sums.allocations]; simp [hZero]
  deallocations := by
    rw [returnedBlocks_concat proper (by simp [hReturned]), hReturned, sums.deallocations]
    simp
  liveBytes := by rw [bytesOut_of_granted proper hGranted hReturned, sums.liveBytes, hZero]; rfl
  peakBytes := by rw [heights_concat_of_ne hAnswer]; exact sums.peakBytes

/-- A granted block is entered once. -/
theorem Sums.of_granted (sums : Sums l record) (proper : Proper record) (hSize : block.size ≠ 0)
    (hGranted : e.granted? = some block) (hReturned : e.returned? = none)
    (hAnswer : e.answer = .block) : Sums (l.grant block.size) (record ++ [e]) where
  allocations := by
    rw [granted_concat, hGranted, Ledger.grant, sums.allocations]
    simp [hSize]
  deallocations := by
    rw [returnedBlocks_concat proper (by simp [hReturned]), hReturned, Ledger.grant,
      sums.deallocations]
    simp
  liveBytes := by
    rw [bytesOut_of_granted proper hGranted hReturned, Ledger.grant, sums.liveBytes]
  peakBytes := by
    rw [heights_concat_of_eq hAnswer, bytesOut_of_granted proper hGranted hReturned, Ledger.grant,
      sums.liveBytes, max_comm]
    exact sums.peakBytes.insert _

/-- A block without bytes is returned. -/
theorem Sums.of_emptied (sums : Sums l record) (proper : Proper record)
    (out : Out record i block) (hZero : block.size = 0) (hGranted : e.granted? = none)
    (hReturned : e.returned? = some i) (hAnswer : e.answer ≠ .block) :
    Sums l (record ++ [e]) where
  allocations := by rw [granted_concat, hGranted, sums.allocations]; simp
  deallocations := by
    rw [returnedBlocks_concat proper (by simp [hReturned, out.lt_length]), hReturned,
      sums.deallocations]
    simp [out.get, hZero]
  liveBytes := by
    have hLess := bytesOut_of_returned out hGranted hReturned
    rw [sums.liveBytes, ← hLess, hZero, Nat.zero_add]
  peakBytes := by rw [heights_concat_of_ne hAnswer]; exact sums.peakBytes

/-- A returned block is entered once, and its bytes leave the account. -/
theorem Sums.of_returned (sums : Sums l record) (proper : Proper record)
    (out : Out record i block) (hSize : block.size ≠ 0) (hGranted : e.granted? = none)
    (hReturned : e.returned? = some i) (hAnswer : e.answer ≠ .block) :
    Sums (l.giveBack block.size) (record ++ [e]) where
  allocations := by rw [granted_concat, hGranted, Ledger.giveBack, sums.allocations]; simp
  deallocations := by
    rw [returnedBlocks_concat proper (by simp [hReturned, out.lt_length]), hReturned,
      Ledger.giveBack, sums.deallocations]
    simp [out.get, hSize]
  liveBytes := by
    have hLess := bytesOut_of_returned out hGranted hReturned
    rw [Ledger.giveBack, sums.liveBytes, ← hLess, Nat.add_sub_cancel_left]
  peakBytes := by rw [heights_concat_of_ne hAnswer]; exact sums.peakBytes

/-- The memory is asked where a block is granted or refused. -/
theorem asked_concat (record : List Exchange) (e : Exchange) :
    asked (record ++ [e]) =
      asked record + if e.answer = .block ∨ e.answer = .refused then 1 else 0 := by
  rw [asked, List.countP_append, List.countP_singleton]
  simp [asked]

/-- The event that every layer raises for an exchange, if the blocks are these. -/
def Exchange.event? (blocks : List Layout) (e : Exchange) : Option Event :=
  match e.request, e.answer with
  | .allocate size align, .block | .allocate size align, .refused => some (.allocated ⟨size, align⟩)
  | .free i, .freed => (blocks[i]?.filter fun block => block.size ≠ 0).map .deallocated
  | _, _ => none

/-- What the layers raise for an exchange. -/
def Exchange.Told (layers : List Layer) (blocks : List Layout) (e : Exchange) : Prop :=
  e.events = (e.event? blocks).elim [] (List.replicate (Layer.voices layers))

/-- What is said about an exchange does not depend on blocks that come later. -/
theorem event?_append {blocks : List Layout} (more : List Layout)
    (hReturned : ∀ i ∈ e.returned?, i < blocks.length) :
    e.event? (blocks ++ more) = e.event? blocks := by
  rw [Exchange.event?, Exchange.event?]
  split
  case h_3 i hRequest hAnswer =>
    have hMem : e.returned? = some i := by rw [Exchange.returned?, hRequest, hAnswer]
    rw [List.getElem?_append_left (hReturned i hMem)]
  all_goals rfl

/-- Nothing is said about an exchange that moves no block. -/
theorem event?_eq_none (hGranted : e.granted? = none) (hReturned : e.returned? = none)
    (hAnswer : e.answer ≠ .refused) (blocks : List Layout) : e.event? blocks = none := by
  rw [Exchange.event?]
  split
  case h_1 hRequest hBlock => simp [Exchange.granted?, hRequest, hBlock] at hGranted
  case h_2 hRequest hRefused => exact absurd hRefused hAnswer
  case h_3 hRequest hFreed => simp [Exchange.returned?, hRequest, hFreed] at hReturned
  case h_4 => rfl

/-- Wherever a tracing layer stands, it raises what all of them raise. -/
theorem heard?_eq {outer inside : List Layer} {blocks : List Layout}
    (hSplit : layers = outer ++ .tracing :: inside) (told : e.Told layers blocks) :
    e.heard? outer inside = e.event? blocks := by
  have hVoices : Layer.voices layers = Layer.voices outer + (Layer.voices inside + 1) := by
    rw [hSplit, Layer.voices_append, Layer.voices, Layer.voices, List.count_cons_self]
    rfl
  have hRead : ∀ j < Layer.voices layers, e.events[j]? = e.event? blocks := by
    intro j hj
    rw [told]
    cases e.event? blocks with
    | none => rfl
    | some event => exact (List.getElem?_replicate_of_lt hj)
  rcases e with ⟨_ | _ | _, answer, events⟩
  · exact hRead _ (by omega)
  · exact hRead _ (by omega)
  · rfl

/-- A tracing layer says what it hears about one exchange after the other. -/
theorem raised_concat {outer inside : List Layer} {blocks : List Layout}
    (hSplit : layers = outer ++ .tracing :: inside) (told : e.Told layers blocks) :
    raised outer inside (record ++ [e]) = raised outer inside record ++
      if e.answer = .refused then [] else (e.event? blocks).toList := by
  rw [raised, List.filter_append, List.filterMap_append, ← heard?_eq hSplit told]
  by_cases hRefused : e.answer = .refused
  · simp [raised, hRefused]
  · cases hHeard : e.heard? outer inside <;> simp [raised, hRefused, hHeard]

/-- Every tracing layer has raised what it should, from which this ledger can be recomputed. -/
structure Heard (layers : List Layer) (record : List Exchange) (l : Ledger) : Prop where
  told : ∀ e ∈ record, e.Told layers (granted record)
  recomputed : ∀ outer inside, layers = outer ++ .tracing :: inside →
    (raised outer inside record).foldl enter {} = l

/-- What a counting layer hears adds up along the record. -/
theorem Heard.concat (heard : Heard layers record l) (proper : Proper record)
    (told : e.Told layers (granted record))
    (hReturned : ∀ i ∈ e.returned?, i < (granted record).length) :
    Heard layers (record ++ [e])
      ((if e.answer = .refused then [] else (e.event? (granted record)).toList).foldl enter l) where
  told := by
    intro e' he'
    -- The blocks granted since then come behind the number that an earlier return names.
    rw [granted_concat, Exchange.Told, event?_append]
    · rcases List.mem_append.mp he' with hOld | hNew
      · exact heard.told e' hOld
      · rw [List.mem_singleton.mp hNew]
        exact told
    · intro i hi
      rcases List.mem_append.mp he' with hOld | hNew
      · exact proper.lt_length i (List.mem_filterMap.mpr ⟨e', hOld, hi⟩)
      · rw [List.mem_singleton.mp hNew] at hi
        exact hReturned i hi
  recomputed := by
    intro outer inside hSplit
    rw [raised_concat hSplit told, List.foldl_append, heard.recomputed outer inside hSplit]

/-- An exchange of which the layers have not been told changes nothing. -/
theorem Heard.silent (heard : Heard layers record l) (proper : Proper record)
    (hSilent : e.event? (granted record) = none) (hEvents : e.events = [])
    (hReturned : ∀ i ∈ e.returned?, i < (granted record).length) :
    Heard layers (record ++ [e]) l := by
  have hTold : e.Told layers (granted record) := by rw [Exchange.Told, hSilent, hEvents]; rfl
  have hNext := heard.concat proper hTold hReturned
  rwa [hSilent, Option.toList_none, ite_self] at hNext

/-- What holds of a client after a record, with one ledger in all the counting layers. -/
structure Tracks (layers : List Layer) (policy : Policy) (record : List Exchange) (s : State)
    (l : Ledger) : Prop where
  proper : Proper record
  sums : Sums l record
  resource : s.env.resource =
    Layer.under l (.system policy (asked record) (bytesOut record)) layers
  blocks : ∀ i : Nat, s.blocks[i]? =
    (granted record)[i]?.map fun block => if i ∈ returned record then none else some block
  heard : Heard layers record l

namespace Tracks

/-- An exchange that does not come to the memory leaves all as it is. -/
theorem idle (tracks : Tracks layers policy record s l) (hGranted : e.granted? = none)
    (hReturned : e.returned? = none) (hAnswer : e.answer ≠ .block ∧ e.answer ≠ .refused)
    (hEvents : e.events = []) : Tracks layers policy (record ++ [e]) s l := by
  constructor
  case proper => exact tracks.proper.concat (by simp [hReturned])
  case sums => exact tracks.sums.of_none tracks.proper hGranted hReturned hAnswer.1
  case resource =>
    rw [tracks.resource, asked_concat, bytesOut_of_none hGranted hReturned]
    simp [hAnswer]
  case blocks =>
    rw [granted_concat, returned_concat, hGranted, hReturned]
    simpa using tracks.blocks
  case heard =>
    have hSilent := event?_eq_none hGranted hReturned hAnswer.2 (granted record)
    exact tracks.heard.silent tracks.proper hSilent hEvents (by simp [hReturned])

theorem size_blocks (tracks : Tracks layers policy record s l) :
    s.blocks.size = (granted record).length := by
  apply Nat.le_antisymm
  · rw [← Array.getElem?_eq_none_iff, tracks.blocks, List.getElem?_eq_none (Nat.le_refl _)]
    rfl
  · rw [← List.getElem?_eq_none_iff, ← Option.map_eq_none_iff, ← tracks.blocks]
    exact Array.getElem?_eq_none (Nat.le_refl _)

/-- A new block takes the next place. -/
theorem blocks_push (tracks : Tracks layers policy record s l)
    (hGranted : e.granted? = some block) (hReturned : e.returned? = none) (j : Nat) :
    (s.blocks.push (some block))[j]? = (granted (record ++ [e]))[j]?.map
      fun block => if j ∈ returned (record ++ [e]) then none else some block := by
  rw [granted_concat, returned_concat, hGranted, hReturned, Array.getElem?_push,
    tracks.size_blocks, tracks.blocks]
  rcases Nat.lt_trichotomy j (granted record).length with hLt | rfl | hGt
  · simp [Nat.ne_of_lt hLt, List.getElem?_append_left hLt]
  · have hNew : (granted record).length ∉ returned record := fun hMem =>
      Nat.lt_irrefl _ (tracks.proper.lt_length _ hMem)
    simp [hNew]
  · -- Past the new number there is no block on either side.
    have hPast : (granted record ++ (some block).toList).length ≤ j := by
      rw [List.length_append]
      exact hGt
    rw [if_neg (Nat.ne_of_gt hGt), List.getElem?_eq_none hPast,
      List.getElem?_eq_none (Nat.le_of_lt hGt)]
    rfl

/-- All layers hear of a block that is granted, and none of one that is refused. -/
theorem allocate_eq (tracks : Tracks layers policy record s l) (block : Layout) :
    s.env.resource.allocate block =
      if policy (asked record) (bytesOut record) block then
        (true, Layer.under (l.grant block.size)
          (.system policy (asked record + 1) (bytesOut record + block.size)) layers,
          List.replicate (Layer.voices layers) (.allocated block))
      else (false, Layer.under l (.system policy (asked record + 1) (bytesOut record)) layers,
          List.replicate (Layer.voices layers) (.allocated block)) := by
  rw [tracks.resource]
  split
  case isTrue hPolicy =>
    have hInner : (Resource.system policy (asked record) (bytesOut record)).allocate block =
        (true, .system policy (asked record + 1) (bytesOut record + block.size), []) :=
      if_pos hPolicy
    exact Layer.allocate_under layers hInner
  case isFalse hPolicy =>
    have hInner : (Resource.system policy (asked record) (bytesOut record)).allocate block =
        (false, .system policy (asked record + 1) (bytesOut record), []) :=
      if_neg hPolicy
    exact Layer.allocate_under layers hInner

/-- A request for no bytes is answered without the memory. -/
theorem dangling (tracks : Tracks layers policy record s l) (hZero : block.size = 0) :
    Tracks layers policy
      (record ++ [⟨.allocate block.size block.align, .dangling block.align, []⟩])
      { s with blocks := s.blocks.push (some block) } l where
  proper := tracks.proper.concat nofun
  sums := tracks.sums.of_empty tracks.proper hZero rfl rfl nofun
  resource := by
    rw [tracks.resource, asked_concat, bytesOut_of_granted tracks.proper rfl rfl, hZero]
    rfl
  blocks := tracks.blocks_push rfl rfl
  heard := tracks.heard.silent tracks.proper rfl rfl nofun

/-- A request that the memory grants is entered in every ledger. -/
theorem granted (tracks : Tracks layers policy record s l) (hSize : block.size ≠ 0)
    {resource : Resource} {events : List Event}
    (hAllocate : s.env.resource.allocate block = (true, resource, events)) :
    Tracks layers policy (record ++ [⟨.allocate block.size block.align, .block, events⟩])
      { env := { s.env with resource, events := s.env.events ++ events.toArray }
        blocks := s.blocks.push (some block) } (l.grant block.size) := by
  rw [tracks.allocate_eq] at hAllocate
  split at hAllocate
  case isFalse => cases hAllocate
  case isTrue =>
    cases hAllocate
    constructor
    case proper => exact tracks.proper.concat nofun
    case sums => exact tracks.sums.of_granted tracks.proper hSize rfl rfl rfl
    case resource =>
      rw [asked_concat, bytesOut_of_granted tracks.proper rfl rfl]
      rfl
    case blocks => exact tracks.blocks_push rfl rfl
    case heard => exact tracks.heard.concat tracks.proper rfl nofun

/-- A request that the memory refuses is entered nowhere. -/
theorem refused (tracks : Tracks layers policy record s l)
    {resource : Resource} {events : List Event}
    (hAllocate : s.env.resource.allocate block = (false, resource, events)) :
    Tracks layers policy (record ++ [⟨.allocate block.size block.align, .refused, events⟩])
      { s with env := { s.env with resource, events := s.env.events ++ events.toArray } } l := by
  rw [tracks.allocate_eq] at hAllocate
  split at hAllocate
  case isTrue => cases hAllocate
  case isFalse =>
    cases hAllocate
    constructor
    case proper => exact tracks.proper.concat nofun
    case sums => exact tracks.sums.of_none tracks.proper rfl rfl nofun
    case resource =>
      rw [asked_concat, bytesOut_of_none rfl rfl]
      rfl
    case blocks =>
      rw [granted_concat, returned_concat]
      simpa [Exchange.granted?, Exchange.returned?] using tracks.blocks
    case heard => exact tracks.heard.concat tracks.proper rfl nofun

/-- A block that is out has been granted and has not been returned. -/
theorem out_iff (tracks : Tracks layers policy record s l) :
    s.blocks[i]? = some (some block) ↔ Out record i block := by
  have hOut : Out record i block ↔
      (Blocks.granted record)[i]? = some block ∧ i ∉ returned record :=
    ⟨fun out => ⟨out.get, out.here⟩, fun h => ⟨h.1, h.2⟩⟩
  rw [tracks.blocks, hOut]
  cases (Blocks.granted record)[i]? with
  | none => simp
  | some other =>
      by_cases hReturned : i ∈ returned record
      · simp [hReturned]
      · simp [hReturned]

/-- All layers hear of a block that comes back. -/
theorem deallocate_eq (tracks : Tracks layers policy record s l) (block : Layout) :
    s.env.resource.deallocate block =
      (Layer.under (l.giveBack block.size)
        (.system policy (asked record) (bytesOut record - block.size)) layers,
        List.replicate (Layer.voices layers) (.deallocated block)) := by
  rw [tracks.resource, Layer.deallocate_under layers rfl]
  exact congrArg (Prod.mk _) (List.append_nil _)

theorem blocks_set (tracks : Tracks layers policy record s l) {events : List Event}
    (hOut : s.blocks[i]? = some (some block)) (j : Nat) :
    (s.blocks.setIfInBounds i none)[j]? =
      (Blocks.granted (record ++ [⟨.free i, .freed, events⟩]))[j]?.map fun block =>
        if j ∈ Blocks.returned (record ++ [⟨.free i, .freed, events⟩]) then none
        else some block := by
  have hLt := (tracks.out_iff.mp hOut).lt_length
  rw [granted_concat, returned_concat, Array.getElem?_setIfInBounds, tracks.size_blocks,
    tracks.blocks]
  simp only [Exchange.granted?, Exchange.returned?, Option.toList_none, List.append_nil,
    Option.toList_some, List.mem_append, List.mem_singleton]
  by_cases hSame : i = j
  · obtain rfl := hSame
    simp [hLt]
  · simp [hSame, Ne.symm hSame]

theorem emptied (tracks : Tracks layers policy record s l)
    (hOut : s.blocks[i]? = some (some block)) (hZero : block.size = 0) :
    Tracks layers policy (record ++ [⟨.free i, .freed, []⟩])
      { s with blocks := s.blocks.setIfInBounds i none } l := by
  have out := tracks.out_iff.mp hOut
  constructor
  case proper =>
    apply tracks.proper.concat
    simpa [Exchange.returned?] using ⟨out.lt_length, out.here⟩
  case sums => exact tracks.sums.of_emptied tracks.proper out hZero rfl rfl nofun
  case resource =>
    have hLess : block.size + bytesOut (record ++ [⟨.free i, .freed, []⟩]) = bytesOut record :=
      bytesOut_of_returned out rfl rfl
    rw [tracks.resource, asked_concat, ← hLess, hZero, Nat.zero_add]
    rfl
  case blocks => exact tracks.blocks_set hOut
  case heard =>
    apply tracks.heard.silent tracks.proper
    · simp [Exchange.event?, out.get, hZero]
    · rfl
    · simpa [Exchange.returned?] using out.lt_length

/-- A block that is not empty is given back through all layers. -/
theorem returned (tracks : Tracks layers policy record s l) {resource : Resource}
    {events : List Event} (hOut : s.blocks[i]? = some (some block)) (hSize : block.size ≠ 0)
    (hDeallocate : s.env.resource.deallocate block = (resource, events)) :
    Tracks layers policy (record ++ [⟨.free i, .freed, events⟩])
      { env := { s.env with resource, events := s.env.events ++ events.toArray }
        blocks := s.blocks.setIfInBounds i none } (l.giveBack block.size) := by
  have out := tracks.out_iff.mp hOut
  have hLess : block.size + bytesOut (record ++ [⟨.free i, .freed, events⟩]) = bytesOut record :=
    bytesOut_of_returned out rfl rfl
  have hEvent : Exchange.event? (Blocks.granted record) ⟨.free i, .freed, events⟩ =
      some (.deallocated block) := by
    simp [Exchange.event?, out.get, hSize]
  rw [tracks.deallocate_eq] at hDeallocate
  obtain ⟨hResource, hEvents⟩ := Prod.mk.inj hDeallocate
  have hTold : Exchange.Told layers (Blocks.granted record) ⟨.free i, .freed, events⟩ := by
    rw [Exchange.Told, hEvent]
    exact hEvents.symm
  constructor
  case proper =>
    apply tracks.proper.concat
    simpa [Exchange.returned?] using ⟨out.lt_length, out.here⟩
  case sums => exact tracks.sums.of_returned tracks.proper out hSize rfl rfl nofun
  case resource =>
    rw [asked_concat, ← hResource, ← hLess, Nat.add_sub_cancel_left]
    rfl
  case blocks => exact tracks.blocks_set hOut
  case heard =>
    have hNext := tracks.heard.concat tracks.proper hTold
      (by simpa [Exchange.returned?] using out.lt_length)
    rwa [hEvent] at hNext

/-- All counting layers have the same ledger. -/
theorem ledgers (tracks : Tracks layers policy record s l) :
    s.env.resource.ledgers = List.replicate (layers.count .counting) l := by
  rw [tracks.resource, Layer.ledgers_under]
  exact List.append_nil _

/-- One exchange more, whatever it comes to. A refusal does not show in the ledger. -/
theorem deals (tracks : Tracks layers policy record s l) (hDeals : Deals s e s') :
    ∃ l', Tracks layers policy (record ++ [e]) s' l' ∧ (e.answer = .refused → l' = l) := by
  cases hDeals with
  | idle hGranted hReturned hAnswer =>
      exact ⟨l, tracks.idle hGranted hReturned hAnswer rfl, fun _ => rfl⟩
  | dangling block hZero => exact ⟨l, tracks.dangling hZero, nofun⟩
  | granted block hSize hAllocate => exact ⟨_, tracks.granted hSize hAllocate, nofun⟩
  | refused block hSize hAllocate => exact ⟨l, tracks.refused hAllocate, fun _ => rfl⟩
  | emptied hOut hZero => exact ⟨l, tracks.emptied hOut hZero, nofun⟩
  | returned hOut hSize hDeallocate => exact ⟨_, tracks.returned hOut hSize hDeallocate, nofun⟩

/-- The account is kept along all requests, by induction from one to the next. -/
theorem run (tracks : Tracks layers policy record s l) (requests : List Request) :
    ∃ l', Tracks layers policy (record ++ s.record requests) (s.run s.env.mark requests).2 l' := by
  induction requests generalizing record s l with
  | nil => exact ⟨l, by simpa [State.record, State.run] using tracks⟩
  | cons request rest ih =>
      obtain ⟨next, hNext, -⟩ := tracks.deals (deals_exchange s request)
      rw [record_cons, List.append_cons]
      exact ih hNext

end Tracks

/-- Nothing has been said before the first request. -/
theorem tracks_opening (layers : List Layer) (policy : Policy) :
    Tracks layers policy [] (opening layers policy) {} where
  proper := ⟨nofun, List.nodup_nil⟩
  sums :=
    { allocations := rfl
      deallocations := rfl
      liveBytes := rfl
      peakBytes := ⟨.inl rfl, by
        rintro n (rfl | ⟨earlier, e, hPrefix, -, -⟩)
        · exact Nat.le_refl 0
        · simp at hPrefix⟩ }
  resource := Layer.stack_eq_under layers _
  blocks := fun i => rfl
  heard := ⟨nofun, fun _ _ _ => rfl⟩

/-- The accounts of a conversation as they stand after a record, and what the next request meets
with. -/
structure Accounts (layers : List Layer) (policy : Policy) (record : List Exchange) (s : State) :
    Prop where
  proper : Proper record
  /-- All counting layers have the same ledger, the sums over the record, and what has been heard
  of any tracing layer adds up to it. -/
  ledgers : ∃ l, s.env.resource.ledgers = List.replicate (layers.count .counting) l ∧
    Sums l record ∧ Heard layers record l
  /-- The memory decides, as if there were no layers. -/
  asks : ∀ block, Layout.ofSizeAlign? block.size block.align = some block → block.size ≠ 0 →
    (s.serve (.allocate block.size block.align)).1 =
      if policy (asked record) (bytesOut record) block then .block else .refused
  returns : ∀ i, (s.serve (.free i)).1 =
    if i < (granted record).length ∧ i ∉ returned record then .freed else .notLive
  refused : ∀ request, (s.serve request).1 = .refused →
    (s.serve request).2.env.resource.ledgers = s.env.resource.ledgers
  /-- A block without bytes has its alignment for an address, and no layer hears of it. -/
  empty : ∀ align, Layout.ofSizeAlign? 0 align = some ⟨0, align⟩ →
    (s.serve (.allocate 0 align)).1 = .dangling align ∧ (s.serve (.allocate 0 align)).2.env = s.env
  emptyReturned : ∀ i align, (granted record)[i]? = some ⟨0, align⟩ →
    (s.serve (.free i)).2.env = s.env

/-- What the account says about the record as a whole. -/
theorem Tracks.accounts (tracks : Tracks layers policy record s l) :
    Accounts layers policy record s := by
  constructor
  case proper => exact tracks.proper
  case ledgers => exact ⟨l, tracks.ledgers, tracks.sums, tracks.heard⟩
  case asks =>
    intro block hLayout hSize
    rw [State.serve, State.allocate, hLayout]
    simp only [if_neg hSize, tracks.allocate_eq]
    split <;> rfl
  case returns =>
    intro i
    rw [State.serve, State.free]
    split
    case h_1 block hOut =>
      have out := tracks.out_iff.mp hOut
      rw [if_pos ⟨out.lt_length, out.here⟩]
    case h_2 hNone =>
      rw [if_neg]
      rintro ⟨hLt, hHere⟩
      exact hNone _ (tracks.out_iff.mpr ⟨List.getElem?_eq_getElem hLt, hHere⟩)
  case refused =>
    intro request hRefused
    obtain ⟨l', hNext, hSame⟩ := tracks.deals (deals_exchange s request)
    rw [hNext.ledgers, tracks.ledgers, hSame hRefused]
  case empty =>
    intro align hLayout
    rw [State.serve, State.allocate, hLayout]
    exact ⟨rfl, rfl⟩
  case emptyReturned =>
    intro i align hGet
    rw [State.serve, State.free]
    split
    case h_1 block hOut =>
      obtain rfl := Option.some.inj ((tracks.out_iff.mp hOut).get.symm.trans hGet)
      rfl
    case h_2 => rfl

/-- Whatever a client asks for and returns, at any time. -/
theorem run_accounts (layers : List Layer) (policy : Policy) (requests : List Request) :
    let s := opening layers policy
    Accounts layers policy (s.record requests) (s.run s.env.mark requests).2 := by
  intro s
  obtain ⟨l, tracks⟩ := (tracks_opening layers policy).run requests
  exact tracks.accounts

end TaskMemory.Blocks

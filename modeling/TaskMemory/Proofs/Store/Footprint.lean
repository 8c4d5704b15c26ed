import TaskMemory.Proofs.Interruption
import TaskMemory.Proofs.Memory.Growth
import TaskMemory.Proofs.Pool.Footprint
import TaskMemory.Proofs.Store.FirstWriter

/-!
What a store has in memory, after any course of requests and when it has come to its end. It has the
blocks of its objects and one block for the table, whose size follows from the number of entries; a
request that puts no object there leaves the memory alone. The end drops every object and gives its
block back, in the order in which they came, and the table last.
-/
namespace TaskMemory.Store

open Duty (left perform)

variable {κ υ : Type}

/-- What becomes of the table's block when an entry is appended. -/
def growth (s : Store κ υ) : List (Effect Unit) :=
  if s.table.items.size = s.table.capacity then
    .obtain (tableEntry.array (Table.nextCapacity s.table.capacity)) ::
      s.tableBlock.map .giveBack
  else []

theorem growth_eq (s : Store κ υ) :
    s.growth = Table.growth tableEntry s.table.size s.table.capacity := by
  have hRelease : s.tableBlock.map (Effect.giveBack : Layout → Effect Unit) =
      if s.table.capacity = 0 then [] else [.giveBack (tableEntry.array s.table.capacity)] := by
    rw [tableBlock]
    split <;> rfl
  rw [growth, Table.growth, hRelease]
  rfl

theorem push_table (s : Store κ υ) (e : Entry κ) (env : Environment) :
    s.table.push tableEntry e env =
      ({ items := s.table.items.push e
         capacity := if s.table.items.size = s.table.capacity then
           Table.nextCapacity s.table.capacity else s.table.capacity },
        Effect.replay s.growth env) := by
  rw [Table.push_eq, growth_eq]
  rfl

variable [ObjectKind κ] [Object υ κ] {s : Store κ υ}

/-- What the insertion of an object does to the environment. -/
def insertion (s : Store κ υ) (key : UInt64) (v : υ) : List (Effect Unit) :=
  .obtain (blockOf v) :: (s.growth ++
    [.raise (.entryConstructed key (ObjectKind.name (Object.kind v)) (blockOf v).size (s.len + 1))])

/-- An insertion obtains the block of the object and makes room for its entry. -/
theorem env_insert (s : Store κ υ) (key : UInt64) (v : υ) (env : Environment) :
    (s.insert key v env).2.2 = Effect.replay (s.insertion key v) env := by
  have hSize : (s.table.items.push ⟨key, Object.kind v, s.objects.size⟩).size = s.len + 1 :=
    Array.size_push _
  rw [insert, push_table, insertion, ← List.cons_append, Effect.replay_append]
  simp only [Table.size, hSize]
  rfl

/-- The table has room for its entries in doublings. -/
theorem capacity_insert (hRoom : s.table.capacity = Table.roomFor s.len) (key : UInt64) (v : υ)
    (env : Environment) : (s.insert key v env).2.1.table.capacity = Table.roomFor (s.len + 1) := by
  rw [insert, push_table, Table.roomFor_succ, ← hRoom]
  rfl

/-- The block of the table is replaced by the one that the longer table has. -/
theorem account_growth (s : Store κ υ) (key : UInt64) (v : υ) (env : Environment)
    (held : Multiset Layout) : Effect.account s.growth (held + s.tableBlock) =
      some (held + (s.insert key v env).2.1.tableBlock) := by
  rw [insert, push_table, growth, tableBlock, tableBlock]
  by_cases hFull : s.table.items.size = s.table.capacity
  · have hNext : Table.nextCapacity s.table.capacity ≠ 0 := by
      rw [Table.nextCapacity]
      split <;> omega
    simp only [if_pos hFull, if_neg hNext]
    generalize tableEntry.array (Table.nextCapacity s.table.capacity) = new
    by_cases hNone : s.table.capacity = 0
    · have hHeld : new ::ₘ held = held + {new} := by
        rw [← Multiset.singleton_add, add_comm]
      simpa [hNone, Effect.account, Effect.enter] using hHeld
    · -- The old block is given back after the new one has been obtained.
      generalize tableEntry.array s.table.capacity = old
      have hHeld : new ::ₘ (held + {old}) = old ::ₘ (held + {new}) := by
        simp only [← Multiset.singleton_add]
        ac_rfl
      simp [hNone, Effect.account, Effect.enter, hHeld]
  · simp [hFull]

/-- An inserted object has its block from then on. -/
theorem account_insertion (s : Store κ υ) (key : UInt64) (v : υ) (env : Environment)
    (held : Multiset Layout) : Effect.account (s.insertion key v) (held + s.tableBlock) =
      some (blockOf v ::ₘ (held + (s.insert key v env).2.1.tableBlock)) := by
  have hGrowth := account_growth s key v env (blockOf v ::ₘ held)
  rw [Multiset.cons_add, Multiset.cons_add] at hGrowth
  show Effect.account (s.growth ++ [_]) (blockOf v ::ₘ (held + s.tableBlock)) = _
  rw [Effect.account_append_of_eq_some hGrowth]
  rfl

variable {x : Service κ υ} {r : Registry υ}

/-- What is known of a store after a course of requests: it has come to its environment by these
effects, and the blocks of its objects and of its table are out. -/
structure Service.Rests (env : Environment) (es : List (Effect Unit)) (x : Service κ υ)
    (r : Registry υ) : Prop where
  mirrors : x.Mirrors r
  capacity : x.store.table.capacity = Table.roomFor x.store.len
  env_eq : x.env = Effect.replay es env
  account : Effect.account es 0 =
    some ((Duty.blocks (duties r) : Multiset Layout) + x.store.tableBlock)

namespace Service.Rests

variable {env : Environment} {es : List (Effect Unit)}

/-- An insertion keeps the account of what the store has obtained. -/
theorem insert (rests : x.Rests env es r) {key : UInt64} (hNew : r.find? key = none) (v : υ) :
    Service.Rests env (es ++ x.store.insertion key v)
      ⟨(x.store.insert key v x.env).2.1, (x.store.insert key v x.env).2.2⟩ (r ++ [(key, v)]) := by
  have hMirrors := (rests.mirrors.insert hNew v).2
  constructor
  case mirrors => exact hMirrors
  case capacity =>
    rw [hMirrors.len_eq, List.length_append, List.length_singleton, ← rests.mirrors.len_eq]
    exact capacity_insert rests.capacity key v x.env
  case env_eq => rw [Effect.replay_append, ← rests.env_eq, env_insert]
  case account =>
    have hBlocks : (Duty.blocks (duties (r ++ [(key, v)])) : Multiset Layout) =
        blockOf v ::ₘ Duty.blocks (duties r) := by
      rw [blocks_duties, blocks_duties, List.map_append, ← Multiset.coe_add, Multiset.add_comm]
      rfl
    rw [Effect.account_append_of_eq_some rests.account, account_insertion _ key v x.env, hBlocks,
      Multiset.cons_add]

end Service.Rests

theorem Service.rests_new (env : Environment) : (⟨{}, env⟩ : Service κ υ).Rests env [] [] :=
  ⟨mirrors_empty env, rfl, rfl, rfl⟩

/-- Without faults the objects are dropped and their blocks given back, one after the other. -/
theorem perform_duties (quiet : ∀ b ∈ r, ∀ env, (Object.drop false b.2 env).1 = none)
    (env : Environment) : perform dropObject (duties r) env = (none, [], r.foldl
      (fun env b => (Object.drop false b.2 env).2.release (blockOf b.2)) env) := by
  induction r generalizing env with
  | nil => rfl
  | cons b r ih =>
      have hQuiet := quiet b List.mem_cons_self env
      have hRest := ih fun c hc => quiet c (List.mem_cons_of_mem _ hc)
      rw [duties, List.flatMap_cons, List.cons_append, perform, dropObject]
      rcases hDrop : Object.drop false b.2 env with ⟨fault, after⟩
      rw [hDrop] at hQuiet
      obtain rfl : fault = none := hQuiet
      rw [List.foldl_cons, hDrop]
      exact hRest _

/-- The bytes of the blocks that a store has. -/
theorem Service.Rests.sum_blocks {env : Environment} {es : List (Effect Unit)}
    (rests : x.Rests env es r) :
    (((Duty.blocks (duties r) : Multiset Layout) + x.store.tableBlock).map Layout.size).sum =
      (x.store.objects.toList.map fun v => (blockOf v).size).sum +
        72 * Table.roomFor x.store.len := by
  have hTable : (x.store.tableBlock.map Layout.size).sum = 72 * Table.roomFor x.store.len := by
    rw [tableBlock, ← rests.capacity]
    split
    · next hNone => rw [hNone]; rfl
    · simp [Layout.array, tableEntry]
  rw [blocks_duties, rests.mirrors.objects, List.map_map, Multiset.map_add, Multiset.sum_add,
    Multiset.map_coe, Multiset.map_coe, Multiset.sum_coe, Multiset.sum_coe, hTable, List.map_map]
  rfl

variable [DecidableEq κ]

/-- What the construction of an object under a key does to the environment. -/
def Service.effort (x : Service κ υ) (key : UInt64) : Except Fault υ → List (Effect Unit)
  | .ok v => if x.store.contains key then [] else x.store.insertion key v
  | .error _ => []

/-- What a request does to the environment. -/
def Service.work (x : Service κ υ) : Request κ υ → List (Effect Unit)
  | .getOrConstruct _ key init => x.effort key init.outcome
  | .getOrDefault kind key => x.effort key (Object.default kind)
  | .get .. | .contains _ | .len => []

def Service.works (x : Service κ υ) : List (Request κ υ) → List (Effect Unit)
  | [] => []
  | request :: rest => x.work request ++ works (x.serve request).2 rest

/-- All that a request can come to: it changes nothing, or it puts an object into the store. -/
inductive Service.Comes (x : Service κ υ) (r : Registry υ) :
    List (Effect Unit) → Registry υ → Reply × Service κ υ → Prop
  | idle {reply : Reply} : Comes x r [] r (reply, x)
  | puts {key : UInt64} {v : υ} (hNew : r.find? key = none) :
      Comes x r (x.store.insertion key v) (r ++ [(key, v)])
        (.found r.length true,
          ⟨(x.store.insert key v x.env).2.1, (x.store.insert key v x.env).2.2⟩)

/-- A construction does as much work as it has to: none if there is an object, or if the constructor
fails. -/
theorem Service.Mirrors.comes_construct (h : x.Mirrors r) {kind : κ} (key : UInt64)
    (init : Constructor υ kind) : Service.Comes x r (x.effort key init.outcome)
      (r.put kind key init).2 (x.construct kind key init.outcome) := by
  have hEntry := h.find?_eq key
  have hContains := h.contains_eq key
  rw [Service.construct, Registry.put]
  cases hFind : r.find? key with
  | some b =>
      rw [hFind] at hEntry hContains
      have hNothing : x.effort key init.outcome = [] := by
        cases init.outcome with
        | ok v => exact if_pos hContains
        | error fault => rfl
      rw [getOrConstruct_held hEntry, hNothing]
      exact .idle
  | none =>
      rw [hFind] at hEntry hContains
      cases init.outcome with
      | error fault =>
          rw [getOrConstruct_failed hEntry]
          exact .idle
      | ok v =>
          have hWork : x.effort key (.ok v) = x.store.insertion key v :=
            if_neg (Bool.eq_false_iff.mp hContains)
          rw [getOrConstruct_first hEntry, hWork, Access.reply, (h.insert hFind v).1]
          exact .puts hFind

/-- Every request does as much work as it has to. -/
theorem Service.Mirrors.comes (h : x.Mirrors r) (request : Request κ υ) :
    Service.Comes x r (x.work request) (r.answer request).2 (x.serve request) := by
  cases request with
  | get | contains | len => exact .idle
  | getOrConstruct kind key init => exact h.comes_construct key init
  | getOrDefault kind key => exact h.comes_construct key (.default kind)

namespace Service.Rests

variable {env : Environment} {es : List (Effect Unit)}

/-- Every request keeps the account. -/
theorem serve (rests : x.Rests env es r) (request : Request κ υ) :
    (x.serve request).2.Rests env (es ++ x.work request) (r.answer request).2 := by
  have hComes := rests.mirrors.comes request
  generalize x.serve request = served at hComes
  generalize x.work request = work at hComes
  generalize (r.answer request).2 = after at hComes
  cases hComes with
  | idle =>
      rw [List.append_nil]
      exact rests
  | puts hNew => exact rests.insert hNew _

theorem run (rests : x.Rests env es r) (requests : List (Request κ υ)) :
    (x.run requests).2.Rests env (es ++ x.works requests) (r.run requests).2 := by
  induction requests generalizing x r es with
  | nil =>
      rw [Service.works, List.append_nil]
      exact rests
  | cons request rest ih =>
      have hLast := ih (rests.serve request)
      rwa [List.append_assoc] at hLast

end Service.Rests

/-- What a store has in memory, and how it ends, if these effects have led to its environment. -/
structure Service.Footprint (env : Environment) (es : List (Effect Unit)) (x : Service κ υ) :
    Prop where
  env_eq : x.env = Effect.replay es env
  /-- The blocks that are out are those of the objects and of the table. -/
  account : Effect.account es 0 = some
    ((x.store.objects.toList.map blockOf : List Layout) + (x.store.tableBlock : Multiset Layout))
  bytes : ∃ l inner, x.env.resource = .counting l inner ∧
    l.liveBytes = (x.store.objects.toList.map fun v => (blockOf v).size).sum +
      72 * Table.roomFor x.store.len
  /-- A request that gets no new object changes nothing. -/
  idle : ∀ request, (∀ i, (x.serve request).1 ≠ .found i true) → (x.serve request).2 = x
  /-- Each object is dropped and its block is given back, in the order in which the objects came;
  then the table goes. -/
  dispose_eq : x.store.dispose x.env = (none, x.store.tableBlock.foldl Environment.release
    (x.store.objects.toList.foldl
      (fun env v => (Object.drop false v env).2.release (blockOf v)) x.env))
  ended : ∃ l inner, (x.store.dispose x.env).2.resource = .counting l inner ∧
    l.liveBytes = 0 ∧ l.allocations = l.deallocations

/-- A store over a counting layer of its own, after any course of requests. All blocks are granted,
since without them there is no next request, and no drop of an object ends in a fault or touches the
layer. -/
theorem Service.run_footprint {env : Environment} {inner : Resource}
    (hEnv : env.resource = .counting {} inner) (requests : List (Request κ υ))
    (granted : Effect.Granted ((⟨{}, env⟩ : Service κ υ).works requests) env)
    (keeps : Duty.KeepsMemory (dropObject : Duty.Dropper υ))
    (quiet : ∀ v ∈ ((⟨{}, env⟩ : Service κ υ).run requests).2.store.objects, ∀ env,
      (Object.drop false v env).1 = none) :
    ((⟨{}, env⟩ : Service κ υ).run requests).2.Footprint env
      ((⟨{}, env⟩ : Service κ υ).works requests) := by
  have rests := (Service.rests_new env).run requests
  rw [List.nil_append] at rests
  generalize ((⟨{}, env⟩ : Service κ υ).run requests).2 = x at quiet rests
  generalize ((⟨{}, env⟩ : Service κ υ).works requests) = es at granted rests
  generalize (Registry.run [] requests).2 = r at rests
  have hObjects := rests.mirrors.objects
  have hNone : Effect.Tallies {} {} 0 := ⟨rfl, rfl⟩
  have tallies := Effect.tallies_foldl hNone rests.account
  obtain ⟨inner', hResource⟩ := Effect.counting_replay Effect.keepsMemory_unit hEnv granted
  rw [← rests.env_eq] at hResource
  have ends := rests.mirrors.ends
  have hQuiet : ∀ b ∈ r, ∀ env, (Object.drop false b.2 env).1 = none := by
    intro b hb
    apply quiet
    rw [← Array.mem_toList_iff, hObjects]
    exact List.mem_map_of_mem hb
  have hPerform := perform_duties hQuiet x.env
  constructor
  case env_eq => exact rests.env_eq
  case account =>
    rw [rests.account, blocks_duties, hObjects, List.map_map]
    rfl
  case bytes =>
    refine ⟨_, inner', hResource, ?_⟩
    rw [tallies.bytes, rests.sum_blocks]
    exact Nat.zero_add _
  case idle =>
    intro request hReply
    have hComes := rests.mirrors.comes request
    generalize x.serve request = served at hReply hComes
    generalize x.work request = work at hComes
    generalize (r.answer request).2 = after at hComes
    cases hComes with
    | idle => rfl
    | puts => exact absurd rfl (hReply r.length)
  case dispose_eq =>
    rw [ends.ending.tear_eq, Duty.finish, hPerform, hObjects, List.foldl_map]
  case ended =>
    have hAll : Effect.Tallies {} (es.foldl Effect.charge {})
        (Duty.blocks (duties r) + (x.store.tableBlock + 0)) := by
      rwa [add_zero]
    obtain ⟨l, inner'', hEnd, hLeft⟩ := ends.ending.account keeps _ _ _ 0 _ hResource hAll
    have hNothing : left dropObject (duties r) x.env = [] := by rw [left, hPerform]
    rw [hNothing] at hLeft
    exact ⟨l, inner'', hEnd, hLeft.bytes, hLeft.blocks⟩

/-- Objects of several sizes, two of them without bytes, and between them a request at another kind
and one whose constructor breaks off. -/
def mixedRequests : List (Request Kind Value) :=
  [.getOrConstruct .unit 1 (.returning Value.unit),
    .getOrConstruct .tracked 2 (.returning (Value.tracked ⟨7, false⟩)), .getOrDefault .string 3,
    .get .uint8 3, .getOrConstruct .block 4 ⟨.error .wordless, nofun⟩, .getOrDefault .block 4,
    .getOrDefault .unit 5, .getOrDefault .tracked 2]

/-- The drop of an object leaves the memory as it is. -/
theorem keepsMemory_value : Duty.KeepsMemory (dropObject : Duty.Dropper Value) := by
  intro v env
  cases v <;> rfl

/-- There are five objects in the end, with 168 bytes, and a table for eight entries. -/
theorem Service.run_footprint_mixed :
    let x := ((⟨{}, Pool.endless⟩ : Service Kind Value).run mixedRequests).2
    x.Footprint Pool.endless ((⟨{}, Pool.endless⟩ : Service Kind Value).works mixedRequests) ∧
      x.store.len = 5 ∧ ∃ l inner, x.env.resource = .counting l inner ∧ l.liveBytes = 744 := by
  intro x
  have generous : Pool.endless.resource.Generous := fun _ _ _ => rfl
  have hObjects : x.store.objects.toList = [.unit, .tracked ⟨7, false⟩, .string "",
      .block (List.replicate 16 0), .unit] := by decide +kernel
  have hLen : x.store.len = 5 := by decide +kernel
  have quiet : ∀ v ∈ x.store.objects, ∀ env, (Object.drop false v env).1 = none := by
    intro v hv env
    rw [← Array.mem_toList_iff, hObjects] at hv
    simp only [List.mem_cons, List.not_mem_nil, or_false] at hv
    rcases hv with rfl | rfl | rfl | rfl | rfl <;> rfl
  have footprint := Service.run_footprint rfl mixedRequests
    (Effect.granted_of_generous Effect.keepsMemory_unit generous _) keepsMemory_value quiet
  obtain ⟨l, inner, hResource, hBytes⟩ := footprint.bytes
  refine ⟨footprint, hLen, l, inner, hResource, ?_⟩
  rw [hBytes, hLen, hObjects]
  decide

end TaskMemory.Store

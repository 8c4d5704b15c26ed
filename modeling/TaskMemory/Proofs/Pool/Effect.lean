import Mathlib.Algebra.BigOperators.Group.Multiset.Basic
import TaskMemory.Pool.Stored

/-!
What a pool does to its environment: it obtains blocks and gives them back, raises events, and drops
values in two halves. A list of effects is a protocol of such work. `replay` is the environment
after it, `perform` does the same up to the first fault, `account` keeps the blocks that are out,
and `dropped` is the values whose drop has begun.
-/
namespace TaskMemory

namespace Resource

/-- The memory inside all layers grants every request. -/
def Generous : Resource → Prop
  | .system policy _ _ => ∀ request live block, policy request live block = true
  | .counting _ inner | .tracing inner => inner.Generous

variable {r : Resource}

/-- Generous memory grants a block and stays generous. -/
theorem Generous.allocate (generous : r.Generous) (block : Layout) :
    (r.allocate block).1 = true ∧ (r.allocate block).2.1.Generous := by
  induction r with
  | system policy requests live =>
      rw [Resource.allocate, if_pos (generous requests live block)]
      exact ⟨rfl, generous⟩
  | counting ledger inner ih =>
      obtain ⟨hGranted, after⟩ := ih generous
      rcases hInner : inner.allocate block with ⟨granted, inner', events⟩
      rw [hInner] at hGranted after
      obtain rfl : granted = true := hGranted
      rw [Resource.allocate, hInner]
      exact ⟨rfl, after⟩
  | tracing inner ih => exact ih generous

theorem Generous.deallocate (generous : r.Generous) (block : Layout) :
    (r.deallocate block).1.Generous := by
  induction r with
  | system policy requests live => exact generous
  | counting ledger inner ih => exact ih generous
  | tracing inner ih => exact ih generous

end Resource

/-- One action of a pool on its environment. -/
inductive Effect (α : Type) where
  | obtain (block : Layout)
  | giveBack (block : Layout)
  | raise (event : Event)
  | beginDrop (v : α)
  /-- The end of a drop; the flag says that a fault is under way. -/
  | endDrop (unwinding : Bool) (v : α)

namespace Effect

variable {α : Type}

/-- The blocks that are out afterwards, unless a block is given back that is not out. -/
def enter (held : Multiset Layout) : Effect α → Option (Multiset Layout)
  | obtain block => some (block ::ₘ held)
  | giveBack block => if block ∈ held then some (held.erase block) else none
  | raise _ | beginDrop _ | endDrop _ _ => some held

/-- The blocks that are out after a protocol. -/
def account (es : List (Effect α)) (held : Multiset Layout) : Option (Multiset Layout) :=
  es.foldlM enter held

def dropped? : Effect α → Option α
  | beginDrop v => some v
  | _ => none

/-- The values whose drop has begun, in that order. -/
def dropped (es : List (Effect α)) : List α := es.filterMap dropped?

/-- Drop a value, without user code in between. -/
def drop (unwinding : Bool) (v : α) : List (Effect α) := [beginDrop v, endDrop unwinding v]

def drops (vs : List α) : List (Effect α) := vs.flatMap (drop false)

@[simp] theorem dropped_append (es fs : List (Effect α)) :
    dropped (es ++ fs) = dropped es ++ dropped fs :=
  List.filterMap_append

@[simp] theorem account_nil (held : Multiset Layout) :
    account ([] : List (Effect α)) held = some held := rfl

/-- What is out after some effects is what more effects start with. -/
theorem account_append (es fs : List (Effect α)) (held : Multiset Layout) :
    account (es ++ fs) held = (account es held).bind (account fs) := by
  simp only [account, List.foldlM_append]
  rfl

theorem account_append_of_eq_some {es fs : List (Effect α)} {held out : Multiset Layout}
    (h : account es held = some out) : account (es ++ fs) held = account fs out := by
  rw [account_append, h, Option.bind_some]

/-- Other blocks that are out do not matter to a protocol. -/
theorem account_add {es : List (Effect α)} {held out : Multiset Layout}
    (h : account es held = some out) (others : Multiset Layout) :
    account es (held + others) = some (out + others) := by
  induction es generalizing held with
  | nil =>
      obtain rfl := Option.some.inj h
      rfl
  | cons e es ih =>
      obtain ⟨middle, hFirst, hRest⟩ := Option.bind_eq_some_iff.mp h
      have hEnter : e.enter (held + others) = some (middle + others) := by
        cases e with
        | obtain block =>
            obtain rfl := Option.some.inj hFirst
            exact congrArg some (Multiset.cons_add ..).symm
        | giveBack block =>
            rw [enter] at hFirst ⊢
            split at hFirst
            · next hMem =>
                rw [if_pos (Multiset.mem_add.mpr (.inl hMem)),
                  Multiset.erase_add_left_pos others hMem, Option.some.inj hFirst]
            · cases hFirst
        | raise | beginDrop | endDrop =>
            exact congrArg (some <| · + others) (Option.some.inj hFirst)
      exact Option.bind_eq_some_iff.mpr ⟨_, hEnter, ih hRest⟩

/-- What an effect asks of the memory itself. -/
def request? : Effect α → Option (Effect Unit)
  | obtain block => some (.obtain block)
  | giveBack block => some (.giveBack block)
  | raise _ | beginDrop _ | endDrop _ _ => none

/-- What a protocol asks of the memory, in that order. The drops of values may ask for more. -/
def requests (es : List (Effect α)) : List (Effect Unit) := es.filterMap request?

@[simp] theorem requests_append (es fs : List (Effect α)) :
    requests (es ++ fs) = requests es ++ requests fs :=
  List.filterMap_append

/-- The account is one of requests alone. -/
theorem account_requests (es : List (Effect α)) (held : Multiset Layout) :
    account (requests es) held = account es held := by
  induction es generalizing held with
  | nil => rfl
  | cons e es ih =>
      cases e with
      | obtain block => exact ih (block ::ₘ held)
      | giveBack block =>
          change (enter held (.giveBack block)).bind (account (requests es)) =
            (enter held (.giveBack block)).bind (account es)
          exact congrArg _ (funext ih)
      | raise | beginDrop | endDrop => exact ih held

/-- What is obtained and given back at once leaves the account as it was. -/
theorem account_probe (block : Layout) (held : Multiset Layout) :
    account ([obtain block, giveBack block] : List (Effect α)) held = some held := by
  simp [account, enter]

theorem dropped_drops (vs : List α) : dropped (drops vs) = vs := by
  induction vs with
  | nil => rfl
  | cons v vs ih => exact congrArg (v :: ·) ih

theorem account_drops (vs : List α) (held : Multiset Layout) :
    account (drops vs) held = some held := by
  induction vs with
  | nil => rfl
  | cons v vs ih => exact ih

/-- A block is replaced by a new one while another one has been obtained. -/
theorem account_move (other new old : Layout) (held : Multiset Layout) :
    account ([obtain other, obtain new, giveBack old] : List (Effect α)) (held + {old}) =
      some (other ::ₘ (held + {new})) := by
  have hHeld : new ::ₘ other ::ₘ (held + {old}) = old ::ₘ other ::ₘ (held + {new}) := by
    simp only [← Multiset.singleton_add]
    ac_rfl
  simp [account, enter, hHeld]

/-- The account that a counting layer keeps; blocks of size zero do not reach it. -/
def charge (l : Ledger) : Effect α → Ledger
  | obtain block => if block.size = 0 then l else l.grant block.size
  | giveBack block => if block.size = 0 then l else l.giveBack block.size
  | raise _ | beginDrop _ | endDrop _ _ => l

/-- A ledger says that, since another one, these blocks have been obtained and are still out. -/
structure Tallies (since l : Ledger) (held : Multiset Layout) : Prop where
  blocks : l.allocations + since.deallocations =
    l.deallocations + since.allocations + held.countP fun block => block.size ≠ 0
  bytes : l.liveBytes = since.liveBytes + (held.map Layout.size).sum

variable {since l : Ledger} {held out : Multiset Layout}

theorem Tallies.obtain (tallies : Tallies since l held) (block : Layout) :
    Tallies since (charge l (.obtain block : Effect α)) (block ::ₘ held) := by
  have hBlocks := tallies.blocks
  have hBytes := tallies.bytes
  rw [Effect.charge]
  split
  · next hZero =>
      constructor
      · rwa [Multiset.countP_cons_of_neg (p := fun block : Layout => block.size ≠ 0) held
          (not_not.mpr hZero)]
      · rwa [Multiset.map_cons, Multiset.sum_cons, hZero, Nat.zero_add]
  · next hSize =>
      constructor
      · rw [Multiset.countP_cons_of_pos (p := fun block : Layout => block.size ≠ 0) held hSize]
        change l.allocations + 1 + since.deallocations = l.deallocations + _ + _
        omega
      · rw [Multiset.map_cons, Multiset.sum_cons]
        change l.liveBytes + block.size = _
        omega

theorem Tallies.giveBack {block : Layout} (tallies : Tallies since l (block ::ₘ held)) :
    Tallies since (charge l (.giveBack block : Effect α)) held := by
  have hBlocks := tallies.blocks
  have hBytes := tallies.bytes
  rw [Multiset.map_cons, Multiset.sum_cons] at hBytes
  rw [Effect.charge]
  split
  · next hZero =>
      rw [Multiset.countP_cons_of_neg (p := fun block : Layout => block.size ≠ 0) held
        (not_not.mpr hZero)] at hBlocks
      exact ⟨hBlocks, by rw [hBytes, hZero, Nat.zero_add]⟩
  · next hSize =>
      rw [Multiset.countP_cons_of_pos (p := fun block : Layout => block.size ≠ 0) held hSize]
        at hBlocks
      constructor
      · change l.allocations + since.deallocations = l.deallocations + 1 + _ + _
        omega
      · change l.liveBytes - block.size = _
        omega

/-- Every effect is entered in the ledger as it is in the blocks. -/
theorem Tallies.charge (tallies : Tallies since l held) {e : Effect α}
    (h : e.enter held = some out) : Tallies since (Effect.charge l e) out := by
  cases e with
  | obtain block => exact Option.some.inj h ▸ tallies.obtain block
  | giveBack block =>
      rw [enter] at h
      split at h
      · next hMem =>
          obtain ⟨rest, rfl⟩ := Multiset.exists_cons_of_mem hMem
          rw [Multiset.erase_cons_head, Option.some.injEq] at h
          exact h ▸ tallies.giveBack
      · cases h
  | raise => exact Option.some.inj h ▸ tallies
  | beginDrop => exact Option.some.inj h ▸ tallies
  | endDrop => exact Option.some.inj h ▸ tallies

/-- The ledger keeps step with the blocks that are out. By induction, with what is out so far kept
general. -/
theorem tallies_foldl (tallies : Tallies since l held) {es : List (Effect α)}
    (h : account es held = some out) : Tallies since (es.foldl charge l) out := by
  induction es generalizing l held with
  | nil => exact Option.some.inj h ▸ tallies
  | cons e es ih =>
      obtain ⟨middle, hFirst, hRest⟩ := Option.bind_eq_some_iff.mp h
      exact ih (tallies.charge hFirst) hRest

/-- When nothing is out any more, as much has been returned as was obtained. -/
theorem balanced_of_account_eq_zero {es : List (Effect α)} (h : account es 0 = some 0)
    (l : Ledger) : (es.foldl charge l).allocations + l.deallocations =
        (es.foldl charge l).deallocations + l.allocations ∧
      (es.foldl charge l).liveBytes = l.liveBytes := by
  have hNone : Tallies l l 0 := ⟨by simp [Nat.add_comm], by simp⟩
  have tallies := tallies_foldl hNone h
  exact ⟨by simpa using tallies.blocks, by simpa using tallies.bytes⟩

variable [Stored α]

def act (env : Environment) : Effect α → Environment
  | obtain block => env.allocate block
  | giveBack block => env.release block
  | raise event => env.raise event
  | beginDrop v => Stored.beginDrop v env
  | endDrop unwinding v => (Stored.endDrop unwinding v env).2.2

def fault? (env : Environment) : Effect α → Option Fault
  | endDrop unwinding v => (Stored.endDrop unwinding v env).1
  | _ => none

def replay (es : List (Effect α)) (env : Environment) : Environment := es.foldl act env

/-- Work through a protocol up to the first fault. -/
def perform : List (Effect α) → Environment → Option Fault × Environment
  | [], env => (none, env)
  | e :: es, env =>
    match e.fault? env with
    | some fault => (some fault, e.act env)
    | none => perform es (e.act env)

@[simp] theorem replay_nil (env : Environment) : replay ([] : List (Effect α)) env = env := rfl

theorem replay_append (es fs : List (Effect α)) (env : Environment) :
    replay (es ++ fs) env = replay fs (replay es env) :=
  List.foldl_append

/-- More effects follow if none of the first ones ends in a fault. -/
theorem perform_append (es fs : List (Effect α)) (env : Environment) :
    perform (es ++ fs) env =
      match perform es env with
      | (some fault, env) => (some fault, env)
      | (none, env) => perform fs env := by
  induction es generalizing env with
  | nil => rfl
  | cons e es ih =>
      rw [List.cons_append, perform, perform]
      cases e.fault? env with
      | some fault => rfl
      | none => exact ih (e.act env)

/-- Without a fault the whole protocol is worked through. -/
theorem perform_snd_of_fault_eq_none {es : List (Effect α)} {env : Environment}
    (h : (perform es env).1 = none) : (perform es env).2 = replay es env := by
  induction es generalizing env with
  | nil => rfl
  | cons e es ih =>
      rw [perform] at h ⊢
      cases hFault : e.fault? env with
      | some fault => simp [hFault] at h
      | none =>
          rw [hFault] at h
          exact ih h

/-- Dropping a value is the two halves of its drop. -/
theorem perform_drop (unwinding : Bool) (v : α) (env : Environment) :
    perform (drop unwinding v) env =
      ((Stored.drop unwinding v env).1, (Stored.drop unwinding v env).2.2) := by
  have hBegin : (beginDrop v : Effect α).fault? env = none := rfl
  rw [drop, perform, hBegin, perform]
  change (match (Stored.drop unwinding v env).1 with
    | some fault => (some fault, (Stored.drop unwinding v env).2.2)
    | none => (none, (Stored.drop unwinding v env).2.2)) = _
  cases (Stored.drop unwinding v env).1 <;> rfl

/-- Whether every block that a protocol asks for is granted. -/
def Granted : List (Effect α) → Environment → Prop
  | [], _ => True
  | e :: es, env =>
    (∀ block, e = obtain block → block.size ≠ 0 → (env.resource.allocate block).1 = true) ∧
      Granted es (e.act env)

/-- Dropping a value neither obtains memory nor gives any back. -/
structure KeepsMemory (α : Type) [Stored α] : Prop where
  beginDrop : ∀ (v : α) env, (Stored.beginDrop v env).resource = env.resource
  endDrop : ∀ unwinding (v : α) env, (Stored.endDrop unwinding v env).2.2.resource = env.resource

/-- A counting layer enters an effect that is granted. -/
theorem counting_act (keeps : KeepsMemory α) {e : Effect α} {env : Environment} {l : Ledger}
    {inner : Resource} (hEnv : env.resource = .counting l inner)
    (hGranted : ∀ block, e = obtain block → block.size ≠ 0 →
      (env.resource.allocate block).1 = true) :
    ∃ inner', (e.act env).resource = .counting (charge l e) inner' := by
  cases e with
  | obtain block =>
      by_cases hZero : block.size = 0
      · exact ⟨inner, by simp [act, Environment.allocate, charge, hZero, hEnv]⟩
      · have hGrant := hGranted block rfl hZero
        rw [hEnv] at hGrant
        rcases hInner : inner.allocate block with ⟨granted, inner', events⟩
        cases granted with
        | false => simp [Resource.allocate, hInner] at hGrant
        | true =>
            exact ⟨inner', by simp [act, Environment.allocate, charge, hZero, hEnv,
              Resource.allocate, hInner]⟩
  | giveBack block =>
      by_cases hZero : block.size = 0
      · exact ⟨inner, by simp [act, Environment.release, charge, hZero, hEnv]⟩
      · rcases hInner : inner.deallocate block with ⟨inner', events⟩
        exact ⟨inner', by simp [act, Environment.release, charge, hZero, hEnv,
          Resource.deallocate, hInner]⟩
  | raise => exact ⟨inner, hEnv⟩
  | beginDrop v => exact ⟨inner, (keeps.beginDrop v env).trans hEnv⟩
  | endDrop unwinding v => exact ⟨inner, (keeps.endDrop unwinding v env).trans hEnv⟩

/-- What reaches a counting layer is entered into its ledger. -/
theorem tallies_act (keeps : KeepsMemory α) {e : Effect α} {env : Environment} {inner : Resource}
    (hEnv : env.resource = .counting l inner) (tallies : Tallies since l held)
    (hEnter : e.enter held = some out)
    (hGranted : ∀ block, e = obtain block → block.size ≠ 0 →
      (env.resource.allocate block).1 = true) :
    ∃ l' inner', (e.act env).resource = .counting l' inner' ∧ Tallies since l' out := by
  obtain ⟨inner', hAct⟩ := counting_act keeps hEnv hGranted
  exact ⟨_, inner', hAct, tallies.charge hEnter⟩

omit [Stored α] in
theorem keepsMemory_unit : KeepsMemory Unit := ⟨fun _ _ => rfl, fun _ _ _ => rfl⟩

/-- A counting layer keeps the account of a protocol. -/
theorem counting_replay (keeps : KeepsMemory α) {es : List (Effect α)} {env : Environment}
    {l : Ledger} {inner : Resource} (hEnv : env.resource = .counting l inner)
    (granted : Granted es env) :
    ∃ inner', (replay es env).resource = .counting (es.foldl charge l) inner' := by
  induction es generalizing env l inner with
  | nil => exact ⟨inner, hEnv⟩
  | cons e es ih =>
      obtain ⟨inner', hAct⟩ := counting_act keeps hEnv granted.1
      exact ih hAct granted.2

/-- Memory that grants every request stays so. -/
theorem generous_act (keeps : KeepsMemory α) {env : Environment}
    (generous : env.resource.Generous) (e : Effect α) : (e.act env).resource.Generous := by
  cases e with
  | obtain block =>
      rw [act, Environment.allocate]
      split
      · exact generous
      · exact (generous.allocate block).2
  | giveBack block =>
      rw [act, Environment.release]
      split
      · exact generous
      · exact generous.deallocate block
  | raise => exact generous
  | beginDrop v => exact (keeps.beginDrop v env).symm ▸ generous
  | endDrop unwinding v => exact (keeps.endDrop unwinding v env).symm ▸ generous

/-- Generous memory grants whatever is asked of it. -/
theorem granted_of_generous (keeps : KeepsMemory α) {env : Environment}
    (generous : env.resource.Generous) (es : List (Effect α)) : Granted es env := by
  induction es generalizing env with
  | nil => trivial
  | cons e es ih =>
      exact ⟨fun block _ _ => (generous.allocate block).1, ih (generous_act keeps generous e)⟩

end Effect
end TaskMemory

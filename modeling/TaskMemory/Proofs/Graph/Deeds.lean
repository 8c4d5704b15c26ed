import TaskMemory.Graph.Node
import TaskMemory.Proofs.Pool.Effect

/-!
What is done to the environment for the nodes of a pool and for the pool itself. Every block has an
owner, and every callable belongs to a node; nodes are told apart by the numbers in which they were
built. A list of deeds is the history of an environment: `replay` is the environment after it, and
`account` keeps the blocks that are out.
-/
namespace TaskMemory

namespace Graph

/-- Whose a block is. -/
inductive Owner where
  /-- The pool that the nodes are in. -/
  | pool
  | payload (number : Nat)
  | successors (number : Nat)

inductive Deed where
  | obtain (owner : Owner) (block : Layout)
  | giveBack (owner : Owner) (block : Layout)
  | raise (event : Event)
  /-- The callable of a node is run. A fault of it is reported and discarded. -/
  | run (number : Nat) (work : Callable)
  /-- The callable of a node is dropped unrun. -/
  | drop (number : Nat) (work : Callable)

def Owner.number? : Owner → Option Nat
  | pool => none
  | payload number | successors number => some number

namespace Deed

/-- The node for which something is done. -/
def number? : Deed → Option Nat
  | obtain owner _ | giveBack owner _ => owner.number?
  | raise _ => none
  | run number _ | drop number _ => some number

/-- What is done for one node. -/
def of (k : Nat) (deeds : List Deed) : List Deed := deeds.filter (·.number? = some k)

/-- Whether the callable of a node is used up. -/
def consumes (k : Nat) : Deed → Bool
  | run number _ | drop number _ => number = k
  | _ => false

/-- The environment after a callable has run, during which its payload counts as spent. A fault is
reported with the size of the block and then let go of. -/
def afterRun (work : Callable) (env : Environment) : Environment :=
  match work.run true env with
  | (none, env) => env
  | (some fault, env) =>
    (fault.discard (env.raise (.payloadFailed fault.message
      (Payload.header.followedBy work.captured).size))).2

def act (env : Environment) : Deed → Environment
  | obtain _ block => env.allocate block
  | giveBack _ block => env.release block
  | raise event => env.raise event
  | run _ work => afterRun work env
  | drop _ work => (work.drop false env).2

/-- This is what becomes of the environment if a payload is invoked that has not been run. -/
theorem invoke_unspent (work : Callable) (env : Environment) :
    (({ callable := work } : Payload).invoke env).2 =
      ({ callable := work, spent := true }, afterRun work env) := by
  rw [Payload.invoke, Payload.claim, afterRun]
  rcases hRun : work.run true env with ⟨_ | fault, env'⟩
  · simp only [hRun, Bool.not_false]
  · rcases hDiscard : fault.discard (env'.raise (.payloadFailed fault.message
      (Payload.header.followedBy work.captured).size)) with ⟨_ | fault', env''⟩
    · simp only [hRun, hDiscard, Bool.not_false, Payload.block]
    · simp only [hRun, hDiscard, Bool.not_false, Payload.block]

def replay (deeds : List Deed) (env : Environment) : Environment := deeds.foldl act env

theorem replay_append (deeds more : List Deed) (env : Environment) :
    replay (deeds ++ more) env = replay more (replay deeds env) :=
  List.foldl_append

@[simp] theorem of_append (k : Nat) (deeds more : List Deed) :
    of k (deeds ++ more) = of k deeds ++ of k more :=
  List.filter_append ..

/-- What is done for one node is all that is done for it. -/
theorem of_eq_self {k : Nat} {deeds : List Deed} (h : ∀ d ∈ deeds, d.number? = some k) :
    of k deeds = deeds :=
  List.filter_eq_self.mpr fun d hd => decide_eq_true (h d hd)

theorem of_eq_nil {k : Nat} {deeds : List Deed} (h : ∀ d ∈ deeds, d.number? ≠ some k) :
    of k deeds = [] :=
  List.filter_eq_nil_iff.mpr fun d hd => by simpa using h d hd

/-- What is done for one node does not concern another one. -/
theorem of_append_of_ne {k j : Nat} {deeds more : List Deed}
    (h : ∀ d ∈ more, d.number? = some j) (hNe : k ≠ j) : of k (deeds ++ more) = of k deeds := by
  have hNone : of k more = [] := of_eq_nil fun d hd => by
    rw [h d hd]
    simpa using hNe.symm
  rw [of_append, hNone, List.append_nil]

/-- What is done for the pool does not concern any node. -/
theorem of_append_of_none {deeds more : List Deed} (h : ∀ d ∈ more, d.number? = none) (k : Nat) :
    of k (deeds ++ more) = of k deeds := by
  have hNone : of k more = [] := of_eq_nil fun d hd => by simp [h d hd]
  rw [of_append, hNone, List.append_nil]

/-- What uses up the callable of a node is done for this node. -/
theorem countP_consumes_of (k : Nat) (deeds : List Deed) :
    (of k deeds).countP (consumes k) = deeds.countP (consumes k) := by
  rw [of, List.countP_filter]
  apply List.countP_congr
  intro d _
  cases d <;> simp [consumes, number?]

/-- What a deed means to the blocks that are out. -/
def effect? : Deed → Option (Effect Unit)
  | obtain _ block => some (.obtain block)
  | giveBack _ block => some (.giveBack block)
  | _ => none

/-- The blocks that are out afterwards, unless a block is given back that is not out. -/
def enter (held : Multiset Layout) (d : Deed) : Option (Multiset Layout) :=
  match d.effect? with
  | some e => e.enter held
  | none => some held

/-- The blocks that are out after some deeds. -/
def account (deeds : List Deed) (held : Multiset Layout) : Option (Multiset Layout) :=
  deeds.foldlM enter held

theorem account_append {deeds more : List Deed} {held out : Multiset Layout}
    (h : account deeds held = some out) : account (deeds ++ more) held = account more out := by
  rw [account, List.foldlM_append]
  exact (congrArg (·.bind (account more)) h).trans rfl

@[simp] theorem account_nil (held : Multiset Layout) : account [] held = some held := rfl

@[simp] theorem account_giveBack (owner : Owner) (block : Layout) (held : Multiset Layout) :
    account [.giveBack owner block] (block ::ₘ held) = some held := by
  simp [account, enter, effect?, Effect.enter]

/-- What a pool does, other than dropping values. -/
def ofPool {α : Type} : Effect α → List Deed
  | .obtain block => [obtain .pool block]
  | .giveBack block => [giveBack .pool block]
  | .raise event => [raise event]
  | .beginDrop _ | .endDrop _ _ => []

/-- What a pool does for itself is done for no node. -/
theorem number?_ofPool {α : Type} (es : List (Effect α)) :
    ∀ d ∈ es.flatMap ofPool, d.number? = none := by
  intro d hd
  obtain ⟨e, -, hd⟩ := List.mem_flatMap.mp hd
  cases e with
  | obtain | giveBack | raise => obtain rfl := List.mem_singleton.mp hd; rfl
  | beginDrop | endDrop => cases hd

/-- Where no values are dropped, this is all that a pool does. -/
theorem replay_ofPool {α : Type} [Stored α] {es : List (Effect α)}
    (h : ∀ e ∈ es, ofPool e ≠ []) (env : Environment) :
    replay (es.flatMap ofPool) env = Effect.replay es env := by
  induction es generalizing env with
  | nil => rfl
  | cons e es ih =>
      have hFirst : replay (ofPool e) env = e.act env := by
        cases e with
        | obtain | giveBack | raise => rfl
        | beginDrop | endDrop => exact absurd rfl (h _ List.mem_cons_self)
      rw [List.flatMap_cons, replay_append, hFirst]
      exact ih (fun e' he => h e' (List.mem_cons_of_mem _ he)) (e.act env)

/-- To the account of the blocks it makes no difference whose they are. -/
theorem account_flatMap_ofPool {α : Type} (es : List (Effect α)) (held : Multiset Layout) :
    account (es.flatMap ofPool) held = Effect.account es held := by
  induction es generalizing held with
  | nil => rfl
  | cons e es ih =>
      have hRest : account (es.flatMap ofPool) = Effect.account es := funext ih
      cases e with
      | obtain block => exact congrFun hRest (block ::ₘ held)
      | giveBack block => exact congrArg (Effect.enter held (.giveBack block : Effect α)).bind hRest
      | raise | beginDrop | endDrop => exact congrFun hRest held

/-- The blocks that a pool obtains and gives back, beside others that are out. -/
theorem account_ofPool {α : Type} {es : List (Effect α)} {held out : Multiset Layout}
    (h : Effect.account es held = some out) (others : Multiset Layout) :
    account (es.flatMap ofPool) (held + others) = some (out + others) := by
  rw [account_flatMap_ofPool, Effect.account_add h]

/-- To a counting layer, as many blocks and bytes come back as go out on the way from one resource
to another one. -/
def Even (r r' : Resource) : Prop :=
  ∀ l inner, r = .counting l inner →
    ∃ l' inner', r' = .counting l' inner' ∧ Effect.Tallies l l' 0

/-- A block that is asked for is granted, and a callable returns the memory that it obtains. -/
def Allowed (env : Environment) : Deed → Prop
  | obtain _ block => block.size ≠ 0 → (env.resource.allocate block).1 = true
  | giveBack _ _ | raise _ => True
  | run number work => Even env.resource ((run number work).act env).resource
  | drop number work => Even env.resource ((drop number work).act env).resource

/-- Every block that is asked for is granted, and every callable returns the memory that it
obtains. -/
def Undisturbed : List Deed → Environment → Prop
  | [], _ => True
  | d :: deeds, env => d.Allowed env ∧ Undisturbed deeds (d.act env)

/-- Memory that has come back does not show among the blocks that are out. -/
theorem Even.tallies {r r' : Resource} {since l : Ledger} {inner : Resource}
    {held : Multiset Layout} (even : Even r r') (hBefore : r = .counting l inner)
    (tallies : Effect.Tallies since l held) :
    ∃ l' inner', r' = .counting l' inner' ∧ Effect.Tallies since l' held := by
  obtain ⟨l', inner', hAfter, back⟩ := even l inner hBefore
  have hBlocks : l'.allocations + l.deallocations = l'.deallocations + l.allocations := by
    simpa using back.blocks
  have hBytes : l'.liveBytes = l.liveBytes := by simpa using back.bytes
  have hOut := tallies.blocks
  exact ⟨l', inner', hAfter, by omega, hBytes.trans tallies.bytes⟩

variable {env : Environment} {since l : Ledger} {inner : Resource} {held out : Multiset Layout}

/-- A deed keeps the ledger in step with the blocks that are out. -/
theorem tallies_act {d : Deed} (hEnv : env.resource = .counting l inner)
    (hAllowed : d.Allowed env) (tallies : Effect.Tallies since l held)
    (hEnter : d.enter held = some out) :
    ∃ l' inner', (d.act env).resource = .counting l' inner' ∧ Effect.Tallies since l' out := by
  cases d with
  | obtain owner block =>
      exact Effect.tallies_act Effect.keepsMemory_unit (e := .obtain block) hEnv tallies hEnter
        fun block' hBlock => by
        cases hBlock
        exact hAllowed
  | giveBack owner block =>
      exact Effect.tallies_act Effect.keepsMemory_unit (e := .giveBack block) hEnv tallies hEnter
        nofun
  | raise event =>
      obtain rfl := Option.some.inj hEnter
      exact ⟨l, inner, hEnv, tallies⟩
  | run number work =>
      obtain rfl := Option.some.inj hEnter
      exact Even.tallies hAllowed hEnv tallies
  | drop number work =>
      obtain rfl := Option.some.inj hEnter
      exact Even.tallies hAllowed hEnv tallies

/-- Deeds one after the other keep the ledger in step. By induction, with what is out so far kept
general. -/
theorem tallies_foldl {deeds : List Deed} (hEnv : env.resource = .counting l inner)
    (undisturbed : Undisturbed deeds env) (tallies : Effect.Tallies since l held)
    (hAccount : account deeds held = some out) :
    ∃ l' inner', (replay deeds env).resource = .counting l' inner' ∧
      Effect.Tallies since l' out := by
  induction deeds generalizing env l inner held with
  | nil =>
      obtain rfl := Option.some.inj hAccount
      exact ⟨l, inner, hEnv, tallies⟩
  | cons d deeds ih =>
      obtain ⟨hAllowed, hRest⟩ := undisturbed
      obtain ⟨middle, hFirst, hMore⟩ := Option.bind_eq_some_iff.mp hAccount
      obtain ⟨l', inner', hAct, hMiddle⟩ := tallies_act hEnv hAllowed tallies hFirst
      exact ih hAct hRest hMiddle hMore

/-- The ledger of a counting layer tells which blocks are out. -/
theorem tallies_replay {deeds : List Deed} (hEnv : env.resource = .counting l inner)
    (undisturbed : Undisturbed deeds env) (hAccount : account deeds 0 = some held) :
    ∃ l' inner', (replay deeds env).resource = .counting l' inner' ∧
      Effect.Tallies l l' held :=
  tallies_foldl hEnv undisturbed ⟨by simp [Nat.add_comm], by simp⟩ hAccount

/-- The callable that a deed is about. -/
def work? : Deed → Option Callable
  | run _ work | drop _ work => some work
  | _ => none

end Deed

/-- Running a callable or dropping it leaves the memory as it is. -/
structure SparesMemory (c : Callable) : Prop where
  run : ∀ env, (Deed.afterRun c env).resource = env.resource
  drop : ∀ env, (c.drop false env).2.resource = env.resource

namespace Deed

/-- What leaves the memory alone returns all that it obtains. -/
theorem even_of_eq {r r' : Resource} (h : r' = r) : Even r r' :=
  fun l inner hBefore => ⟨l, inner, h.trans hBefore, by simp [Nat.add_comm], by simp⟩

/-- Where every request is granted, each deed is allowed whose callable leaves the memory alone, and
the next request will be granted as well. -/
theorem allowed_of_spares {d : Deed} {env : Environment} (generous : env.resource.Generous)
    (hWork : ∀ c, d.work? = some c → SparesMemory c) :
    d.Allowed env ∧ (d.act env).resource.Generous := by
  cases d with
  | obtain owner block =>
      exact ⟨fun _ => (generous.allocate block).1,
        Effect.generous_act Effect.keepsMemory_unit generous (.obtain block)⟩
  | giveBack owner block =>
      exact ⟨trivial, Effect.generous_act Effect.keepsMemory_unit generous (.giveBack block)⟩
  | raise event => exact ⟨trivial, generous⟩
  | run number work =>
      have hSame := (hWork work rfl).run env
      exact ⟨even_of_eq hSame, hSame ▸ generous⟩
  | drop number work =>
      have hSame := (hWork work rfl).drop env
      exact ⟨even_of_eq hSame, hSame ▸ generous⟩

/-- Where every request is granted, callables that leave the memory as it is do not disturb. -/
theorem undisturbed_of_spares {deeds : List Deed} {env : Environment}
    (generous : env.resource.Generous)
    (hWork : ∀ d ∈ deeds, ∀ c, d.work? = some c → SparesMemory c) : Undisturbed deeds env := by
  induction deeds generalizing env with
  | nil => trivial
  | cons d deeds ih =>
      obtain ⟨hAllowed, after⟩ := allowed_of_spares generous (hWork d List.mem_cons_self)
      exact ⟨hAllowed, ih after fun d' hd => hWork d' (List.mem_cons_of_mem _ hd)⟩

end Deed
end Graph
end TaskMemory

import TaskMemory.Fault
import TaskMemory.Proofs.Pool.Effect

/-!
The end of a component: values are dropped and blocks are given back in a fixed order. A fault in
the drop of a value ends this there and then, so what stands behind the value stays undone. Some
blocks belong to parts that look after themselves and are given back in any case.
-/
namespace TaskMemory

/-- What is to be done at the end of a component. -/
inductive Duty (β : Type) where
  | drop (b : β)
  | giveBack (block : Layout)

namespace Duty

variable {β : Type}

def value? : Duty β → Option β
  | drop b => some b
  | giveBack _ => none

def block? : Duty β → Option Layout
  | drop _ => none
  | giveBack block => some block

def values (duties : List (Duty β)) : List β := duties.filterMap value?

def blocks (duties : List (Duty β)) : List Layout := duties.filterMap block?

theorem values_append (duties more : List (Duty β)) :
    values (duties ++ more) = values duties ++ values more :=
  List.filterMap_append

theorem blocks_append (duties more : List (Duty β)) :
    blocks (duties ++ more) = blocks duties ++ blocks more :=
  List.filterMap_append

theorem values_drops (bs : List β) : values (bs.map .drop) = bs := by
  rw [values, List.filterMap_map]
  exact List.filterMap_some

theorem blocks_drops (bs : List β) : blocks (bs.map .drop) = [] :=
  List.filterMap_eq_nil_iff.mpr fun d hMem => by
    obtain ⟨b, -, rfl⟩ := List.mem_map.mp hMem
    rfl

theorem mem_blocks {duties : List (Duty β)} {block : Layout} :
    block ∈ blocks duties ↔ .giveBack block ∈ duties := by
  rw [blocks, List.mem_filterMap]
  constructor
  · rintro ⟨_ | block', hMem, hSame⟩
    · cases hSame
    · cases hSame
      exact hMem
  · exact fun hMem => ⟨_, hMem, rfl⟩

/-- What lies behind a value in a row of values that ends with a block. -/
theorem exists_of_row {front back : List (Duty β)} {bs : List β} {b : β} {block : Layout}
    (h : bs.map .drop ++ [.giveBack block] = front ++ .drop b :: back) :
    ∃ first last, bs = first ++ b :: last ∧ back = last.map .drop ++ [.giveBack block] := by
  induction bs generalizing front with
  | nil =>
      cases front with
      | nil => cases h
      | cons d front => simp at h
  | cons c bs ih =>
      cases front with
      | nil =>
          obtain ⟨hSame, rfl⟩ := List.cons.inj h
          cases hSame
          exact ⟨[], bs, rfl, rfl⟩
      | cons d front =>
          obtain ⟨first, last, rfl, hBack⟩ := ih (List.cons.inj h).2
          exact ⟨c :: first, last, rfl, hBack⟩

/-- Where a drop and a return are all that there is to do, nothing comes before the drop. -/
theorem eq_of_pair {front back : List (Duty β)} {b c : β} {block : Layout}
    (h : [.drop c, .giveBack block] = front ++ .drop b :: back) :
    front = [] ∧ c = b ∧ back = [.giveBack block] := by
  cases front with
  | nil =>
      obtain ⟨hSame, rfl⟩ := List.cons.inj h
      exact ⟨rfl, Duty.drop.inj hSame, rfl⟩
  | cons d front =>
      have hRest := (List.cons.inj h).2
      cases front with
      | nil => cases hRest
      | cons d front => simp at hRest

/-- What lies behind a duty, in a list that is put together from several ones. -/
theorem exists_of_flatMap_eq {γ : Type} {f : γ → List (Duty β)} {l : List γ}
    {before after : List (Duty β)} {d : Duty β} (h : l.flatMap f = before ++ d :: after) :
    ∃ first c last front back, l = first ++ c :: last ∧ f c = front ++ d :: back ∧
      before = first.flatMap f ++ front ∧ after = back ++ last.flatMap f := by
  induction l generalizing before with
  | nil => simp at h
  | cons c l ih =>
      rw [List.flatMap_cons] at h
      -- The duty belongs to a later part or to the first one, unless the first ends just before it.
      rcases List.append_eq_append_iff.mp h with ⟨front, rfl, hRest⟩ | ⟨back, hFront, hRest⟩
      · obtain ⟨first, c', last, front', back, rfl, hSplit, rfl, rfl⟩ := ih hRest
        exact ⟨c :: first, c', last, front', back, rfl, hSplit, by simp, rfl⟩
      · cases back with
        | nil =>
            have hBehind : l.flatMap f = [] ++ d :: after := hRest.symm
            obtain ⟨first, c', last, front, back, rfl, hSplit, hNone, rfl⟩ := ih hBehind
            rw [List.append_nil] at hFront
            refine ⟨c :: first, c', last, front, back, rfl, hSplit, ?_, rfl⟩
            rw [List.flatMap_cons, List.append_assoc, ← hNone, List.append_nil, hFront]
        | cons d' back =>
            obtain ⟨rfl, rfl⟩ := List.cons.inj hRest
            exact ⟨[], c, l, before, back, rfl, hFront, rfl, rfl⟩

/-- How values are dropped: the fault that this ends in, if any. -/
abbrev Dropper (β : Type) := β → Environment → Option Fault × Environment

variable (drop : Dropper β)

/-- Do what is to be done, up to the first fault; the fault, what stays undone, and the environment
then. -/
def perform : List (Duty β) → Environment → Option Fault × List (Duty β) × Environment
  | [], env => (none, [], env)
  | .giveBack block :: rest, env => perform rest (env.release block)
  | .drop b :: rest, env =>
    match drop b env with
    | (some fault, env) => (some fault, rest, env)
    | (none, env) => perform rest env

/-- The end of a component that has these duties, and blocks that are given back in any case. -/
def finish (duties : List (Duty β)) (always : List Layout) (env : Environment) :
    Option Fault × Environment :=
  match perform drop duties env with
  | (fault, _, env) => (fault, always.foldl Environment.release env)

/-- What stays undone. -/
def left (duties : List (Duty β)) (env : Environment) : List (Duty β) :=
  (perform drop duties env).2.1

/-- There is nothing to it: the value has nothing to drop, or the block has no bytes. -/
def Void : Duty β → Prop
  | .drop b => ∀ env, drop b env = (none, env)
  | .giveBack block => block.size = 0

/-- All is done for which there is anything to do. -/
def Complete (duties : List (Duty β)) (env : Environment) : Prop :=
  ∀ d ∈ left drop duties env, Void drop d

variable {drop} {duties : List (Duty β)} {always : List Layout} {env : Environment}

/-- If no drop ends in a fault nothing is left undone. -/
theorem left_of_quiet (h : (perform drop duties env).1 = none) : left drop duties env = [] := by
  induction duties generalizing env with
  | nil => rfl
  | cons d rest ih =>
      cases d with
      | giveBack block => exact ih h
      | drop b =>
          rw [left, perform]
          rw [perform] at h
          rcases hDrop : drop b env with ⟨_ | fault, after⟩
          · rw [hDrop] at h
            exact ih h
          · rw [hDrop] at h
            cases h

/-- A fault comes from the drop of a value. All in front of the value is done, and nothing behind
it. -/
theorem exists_of_fault {fault : Fault} (h : (perform drop duties env).1 = some fault) :
    ∃ before b reached, duties = before ++ .drop b :: left drop duties env ∧
      perform drop before env = (none, [], reached) ∧
      drop b reached = (some fault, (perform drop duties env).2.2) := by
  induction duties generalizing env with
  | nil => cases h
  | cons d rest ih =>
      cases d with
      | giveBack block =>
          obtain ⟨before, b, reached, hSplit, hBefore, hDrop⟩ := ih h
          exact ⟨.giveBack block :: before, b, reached, congrArg _ hSplit, hBefore, hDrop⟩
      | drop b =>
          rw [left, perform]
          rw [perform] at h
          rcases hDrop : drop b env with ⟨_ | broken, after⟩
          · rw [hDrop] at h
            obtain ⟨before, c, reached, hSplit, hBefore, hFault⟩ := ih h
            refine ⟨.drop b :: before, c, reached, congrArg _ hSplit, ?_, hFault⟩
            rw [perform, hDrop]
            exact hBefore
          · rw [hDrop] at h
            obtain rfl : broken = fault := Option.some.inj h
            exact ⟨[], b, env, rfl, rfl, hDrop⟩

/-- Dropping a value leaves the memory alone. -/
def KeepsMemory (drop : Dropper β) : Prop := ∀ b env, (drop b env).2.resource = env.resource

open Effect (Tallies)

variable {since l : Ledger} {inner : Resource} {others : Multiset Layout}

theorem tallies_release {block : Layout} (hEnv : env.resource = .counting l inner)
    (tallies : Tallies since l (block ::ₘ others)) : ∃ l' inner',
      (env.release block).resource = .counting l' inner' ∧ Tallies since l' others := by
  have hEnter : (Effect.giveBack block : Effect Unit).enter (block ::ₘ others) = some others := by
    simp [Effect.enter]
  exact Effect.tallies_act Effect.keepsMemory_unit hEnv tallies hEnter fun _ h => by cases h

/-- Blocks that are given back one after the other are taken from those that are out. -/
theorem tallies_releases (always : List Layout) (hEnv : env.resource = .counting l inner)
    (tallies : Tallies since l (always + others)) : ∃ l' inner',
      (always.foldl Environment.release env).resource = .counting l' inner' ∧
        Tallies since l' others := by
  induction always generalizing env l inner with
  | nil => exact ⟨l, inner, hEnv, by simpa using tallies⟩
  | cons block rest ih =>
      rw [← Multiset.cons_coe, Multiset.cons_add] at tallies
      obtain ⟨l', inner', hAfter, after⟩ := tallies_release hEnv tallies
      exact ih hAfter after

/-- After some duties the blocks are out that belong to duties left undone. -/
theorem tallies_perform (keeps : KeepsMemory drop) (hEnv : env.resource = .counting l inner)
    (tallies : Tallies since l (blocks duties + others)) : ∃ l' inner',
      (perform drop duties env).2.2.resource = .counting l' inner' ∧
        Tallies since l' (blocks (left drop duties env) + others) := by
  induction duties generalizing env l inner with
  | nil => exact ⟨l, inner, hEnv, tallies⟩
  | cons d rest ih =>
      cases d with
      | giveBack block =>
          have hBlocks : (blocks (.giveBack block :: rest : List (Duty β)) : Multiset Layout) =
              block ::ₘ blocks rest := rfl
          rw [hBlocks, Multiset.cons_add] at tallies
          obtain ⟨l', inner', hAfter, after⟩ := tallies_release hEnv tallies
          exact ih hAfter after
      | drop b =>
          have hSame : (drop b env).2.resource = .counting l inner := (keeps b env).trans hEnv
          rw [left, perform]
          rcases hDrop : drop b env with ⟨_ | fault, after⟩
          · rw [hDrop] at hSame
            exact ih hSame tallies
          · rw [hDrop] at hSame
            exact ⟨l, inner, hSame, tallies⟩

/-- Of the blocks that were out at the beginning of the end, those that have not been given back are
out after it. -/
theorem tallies_finish (keeps : KeepsMemory drop) (hEnv : env.resource = .counting l inner)
    (tallies : Tallies since l (blocks duties + (always + others))) : ∃ l' inner',
      (finish drop duties always env).2.resource = .counting l' inner' ∧
        Tallies since l' (blocks (left drop duties env) + others) := by
  obtain ⟨l', inner', hAfter, after⟩ := tallies_perform keeps hEnv tallies
  rw [add_left_comm] at after
  exact tallies_releases always hAfter after

/-- How a component ends that has these duties, and these blocks besides. -/
structure Ending (drop : Dropper β) (duties : List (Duty β)) (always : List Layout)
    (tear : Environment → Option Fault × Environment) : Prop where
  tear_eq : ∀ env, tear env = finish drop duties always env
  /-- Without a fault all is done. -/
  quiet : ∀ env, (tear env).1 = none → left drop duties env = []
  /-- A fault comes from the drop of a value. All in front of the value is done, and nothing behind
  it. -/
  broken : ∀ env fault, (tear env).1 = some fault → ∃ before b reached after,
    duties = before ++ .drop b :: left drop duties env ∧
    perform drop before env = (none, [], reached) ∧ drop b reached = (some fault, after) ∧
    tear env = (some fault, always.foldl Environment.release after)
  /-- A counting layer sees the blocks as still out that have not been given back. -/
  account : KeepsMemory drop → ∀ since l inner others env, env.resource = .counting l inner →
    Tallies since l (blocks duties + (always + others)) → ∃ l' inner',
      (tear env).2.resource = .counting l' inner' ∧
        Tallies since l' (blocks (left drop duties env) + others)

/-- If there is a block with bytes behind every fault, then all is done only without one. -/
theorem Ending.complete_iff {tear : Environment → Option Fault × Environment}
    (ending : Ending drop duties always tear) (h : ∀ fault, (tear env).1 = some fault →
      ∃ block ∈ blocks (left drop duties env), block.size ≠ 0) :
    Complete drop duties env ↔ (tear env).1 = none := by
  constructor
  · intro complete
    by_contra hFault
    obtain ⟨fault, hFault⟩ := Option.ne_none_iff_exists'.mp hFault
    obtain ⟨block, hMem, hSize⟩ := h fault hFault
    exact hSize (complete _ (mem_blocks.mp hMem))
  · intro hQuiet
    rw [Complete, ending.quiet env hQuiet]
    exact fun _ hMem => absurd hMem List.not_mem_nil

/-- Whatever comes down to duties and to blocks that are given back in any case ends as these do. -/
theorem ending {tear : Environment → Option Fault × Environment}
    (h : ∀ env, tear env = finish drop duties always env) : Ending drop duties always tear where
  tear_eq := h
  quiet env hQuiet := left_of_quiet ((congrArg Prod.fst (h env)).symm.trans hQuiet)
  broken env fault hFault := by
    rw [h env] at hFault ⊢
    obtain ⟨before, b, reached, hSplit, hBefore, hDrop⟩ := exists_of_fault hFault
    exact ⟨before, b, reached, _, hSplit, hBefore, hDrop, Prod.ext hFault rfl⟩
  account keeps since l inner others env hEnv tallies := by
    rw [h env]
    exact tallies_finish keeps hEnv tallies

end Duty
end TaskMemory

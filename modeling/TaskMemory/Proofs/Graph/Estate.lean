import TaskMemory.Graph.Node
import TaskMemory.Proofs.Graph.Lives
import TaskMemory.Proofs.Pool.Refinement

/-!
A pool of nodes in the hands of a client that builds nodes, uses them and takes some of them out.
The client says what is to be done in orders. It knows the nodes that it has built by their handles
and their numbers; a node in the pool is only known there as long as it has not left.
-/
namespace TaskMemory

/-- A walk over successors keeps what a decrement and a report keep. -/
theorem Node.notify_keeps {σ : Type} {P : σ → Prop} {decrement : Handle → σ → Except Fault Bool × σ}
    {onReady : Handle → σ → σ} (hDecrement : ∀ h s, P s → P (decrement h s).2)
    (hReady : ∀ h s, P s → P (onReady h s)) (handles : List Handle) {s : σ} (h : P s) :
    P (Node.notify decrement onReady handles s).2 := by
  induction handles generalizing s with
  | nil => exact h
  | cons handle rest ih =>
      have hNext := hDecrement handle s h
      rw [Node.notify]
      rcases hOutcome : decrement handle s with ⟨fault | _ | _, s'⟩
      · rw [hOutcome] at hNext
        exact hNext
      · rw [hOutcome] at hNext
        exact ih hNext
      · rw [hOutcome] at hNext
        have hRest := ih (hReady handle s' hNext)
        rcases hWalk : Node.notify decrement onReady rest (onReady handle s') with ⟨_ | _, s''⟩
        · rw [hWalk] at hRest
          simpa only [hWalk] using hRest
        · rw [hWalk] at hRest
          simpa only [hWalk] using hRest

namespace Graph

open Pool (Holding)

/-- What a client knows of the nodes that it has built. -/
structure Roll where
  /-- The nodes in the pool, with the numbers in which they were built. -/
  residents : List (Holding Node) := []
  /-- The nodes that have been taken out of the pool and still exist. -/
  taken : List (Holding Node) := []
  /-- How many nodes have been built. -/
  built : Nat := 0
  /-- The faults in which drops of nodes have ended. -/
  broken : List Fault := []

/-- The nodes that exist. -/
def Roll.nodes (roll : Roll) : List (Holding Node) := roll.residents ++ roll.taken

/-- A pool of nodes, and the nodes that have been taken out of it. -/
abbrev Estate := Host Node Roll

/-- A node in the pool, by its handle, or one that has been taken out, by its number. -/
inductive Target where
  | inside (h : Handle)
  | outside (number : Nat)

inductive Order where
  | build (graph waitCount : UInt32) (design : Design)
  | run (target : Target)
  | decrement (target : Target)
  /-- Decrement the successors of a node, one after the other. -/
  | notify (target : Target)
  | destroy (h : Handle)
  | take (h : Handle)
  /-- Drop a node that has been taken out. -/
  | discard (number : Nat)

def Order.design? : Order → Option Design
  | build _ _ design => some design
  | _ => none

namespace Estate

def resident? (h : Handle) (w : Estate) : Option (Holding Node) :=
  w.state.residents.find? (·.handle = h)

def taken? (number : Nat) (w : Estate) : Option (Holding Node) :=
  w.state.taken.find? (·.birth = number)

/-- The node that a target names; a node in the pool is read there. -/
def node? (w : Estate) : Target → Option Node
  | .inside h => (w.resident? h).bind fun _ => (w.get? h).toOption.join
  | .outside number => (w.taken? number).map Holding.value

/-- A node is another one from now on. -/
def put (target : Target) (n : Node) (w : Estate) : Estate :=
  match target with
  | .inside h =>
    match w.resident? h with
    | none => w
    | some r =>
      let residents := w.state.residents.eraseP (·.handle = h) ++ [{ r with value := n }]
      { Host.set h n w with state := { w.state with residents } }
  | .outside number =>
    match w.taken? number with
    | none => w
    | some r =>
      let taken := w.state.taken.eraseP (·.birth = number) ++ [{ r with value := n }]
      { w with state := { w.state with taken } }

/-- Enter a node that has been built, which is in the pool or has been dropped. -/
def enroll (n : Node) : Except Refusal Handle × Estate → Estate
  | (.ok h, w) =>
    let residents := w.state.residents ++ [⟨h, w.state.built, n⟩]
    { w with state := { w.state with built := w.state.built + 1, residents } }
  | (.error (.noSlot _), w) => { w with state := { w.state with built := w.state.built + 1 } }
  | (.error (.fault fault), w) =>
    let broken := w.state.broken ++ [fault]
    { w with state := { w.state with built := w.state.built + 1, broken } }

/-- Build a node and put it into the pool. -/
def build (graph waitCount : UInt32) (d : Design) (w : Estate) : Estate :=
  match Node.create graph waitCount d.work d.successors w.env with
  | (n, env) => enroll n (({ w with env } : Estate).insert n)

def run (target : Target) (w : Estate) : Estate :=
  match w.node? target with
  | none => w
  | some n =>
    match n.run w.env with
    | (_, n, env) => put target n { w with env }

/-- Decrement a node, if there is one. A handle whose slab does not exist is a fault. -/
def decrement (target : Target) (w : Estate) : Except Fault Bool × Estate :=
  match w.node? target with
  | none => (match target with
    | .inside h => (w.get? h).map fun _ => false
    | .outside _ => .ok false, w)
  | some n =>
    match n.decrement with
    | (last, n) => (last, put target n w)

def destroy (h : Handle) (w : Estate) : Estate :=
  match w.resident? h with
  | none => w
  | some _ =>
    let residents := w.state.residents.eraseP (·.handle = h)
    match w.remove h with
    | (.ok (), w) => { w with state := { w.state with residents } }
    | (.error fault, w) =>
      { w with state := { w.state with residents, broken := w.state.broken ++ [fault] } }

def take (h : Handle) (w : Estate) : Estate :=
  match w.resident? h, Host.take h w with
  | some r, (.ok (some n), w) =>
    let residents := w.state.residents.eraseP (·.handle = h)
    let taken := w.state.taken ++ [{ r with value := n }]
    { w with state := { w.state with residents, taken } }
  | _, _ => w

def discard (number : Nat) (w : Estate) : Estate :=
  match w.taken? number with
  | none => w
  | some r =>
    let taken := w.state.taken.eraseP (·.birth = number)
    match Stored.drop false r.value w.env with
    | (fault, _, env) =>
      { w with env, state := { w.state with taken, broken := w.state.broken ++ fault.toList } }

def serve (w : Estate) : Order → Estate
  | .build graph waitCount design => w.build graph waitCount design
  | .run target => w.run target
  | .decrement target => (w.decrement target).2
  | .notify target =>
    match w.node? target with
    | none => w
    | some n =>
      (Node.notify (fun h => decrement (.inside h)) (fun _ w => w) n.successors.handles w).2
  | .destroy h => w.destroy h
  | .take h => w.take h
  | .discard number => w.discard number

/-- Serve orders one after the other. -/
def serveAll (w : Estate) (orders : List Order) : Estate := orders.foldl serve w

section Faults

variable (w : Estate)

/-- A node that is built breaks nothing that was whole. -/
theorem broken_enroll (n : Node) (outcome : Except Refusal Handle × Estate) :
    outcome.2.state.broken <+: (enroll n outcome).state.broken := by
  rcases outcome with ⟨⟨_ | fault⟩ | h, w⟩
  · exact List.prefix_refl _
  · exact List.prefix_append _ _
  · exact List.prefix_refl _

theorem broken_put (target : Target) (n : Node) :
    (put target n w).state.broken = w.state.broken := by
  cases target with
  | inside h =>
      rw [put]
      split <;> rfl
  | outside k =>
      rw [put]
      split <;> rfl

/-- Whatever comes of a construction, nodes that have broken off stay in the list. -/
theorem broken_build (graph waitCount : UInt32) (d : Design) :
    w.state.broken <+: (w.build graph waitCount d).state.broken := by
  rcases hCreate : Node.create graph waitCount d.work d.successors w.env with ⟨n, env⟩
  have hState : w.state.broken <+: (({ w with env } : Estate).insert n).2.state.broken :=
    Host.construct_state (P := fun roll : Roll => w.state.broken <+: roll.broken) Host.idle
      Host.idle (fun _ => id) (fun _ => id) n none (List.prefix_refl _)
  rw [build, hCreate]
  exact hState.trans (broken_enroll _ _)

theorem broken_run (target : Target) : (w.run target).state.broken = w.state.broken := by
  rw [run]
  split
  · rfl
  · exact broken_put _ target _

theorem broken_decrement (target : Target) :
    (w.decrement target).2.state.broken = w.state.broken := by
  cases hNode : w.node? target with
  | none => rw [decrement.eq_def, hNode]
  | some n =>
      rw [decrement.eq_def, hNode]
      exact broken_put _ target _

/-- A destruction may add a node to those that have broken off. -/
theorem broken_destroy (h : Handle) : w.state.broken <+: (w.destroy h).state.broken := by
  rw [destroy]
  split
  · exact List.prefix_refl _
  · have hState : w.state.broken <+: (w.remove h).2.state.broken :=
      Host.destroy_state (P := fun roll : Roll => w.state.broken <+: roll.broken) Host.idle
        (fun _ => id) h (List.prefix_refl _)
    rcases hRemove : w.remove h with ⟨fault | _, w'⟩
    · rw [hRemove] at hState
      exact hState.trans (List.prefix_append _ _)
    · rw [hRemove] at hState
      exact hState

theorem broken_take (h : Handle) : (w.take h).state.broken = w.state.broken := by
  have hState := Host.take_state h w
  rw [take]
  split
  · next hTake =>
      rw [hTake] at hState
      have hBroken := congrArg Roll.broken hState
      exact hBroken
  · rfl

theorem broken_discard (k : Nat) : w.state.broken <+: (w.discard k).state.broken := by
  rw [discard]
  split
  · exact List.prefix_refl _
  · exact List.prefix_append _ _

/-- The faults so far are not forgotten. -/
theorem broken_serve (o : Order) : w.state.broken <+: (w.serve o).state.broken := by
  cases o with
  | build graph waitCount d => exact w.broken_build graph waitCount d
  | run target => exact w.broken_run target ▸ List.prefix_refl _
  | decrement target => exact w.broken_decrement target ▸ List.prefix_refl _
  | notify target =>
      rw [serve]
      split
      · exact List.prefix_refl _
      · exact Node.notify_keeps (P := fun w' : Estate => w.state.broken <+: w'.state.broken)
          (fun h w' hPrefix => (broken_decrement w' (.inside h)).symm ▸ hPrefix)
          (fun _ _ => id) _ (List.prefix_refl _)
  | destroy h => exact w.broken_destroy h
  | take h => exact w.broken_take h ▸ List.prefix_refl _
  | discard k => exact w.broken_discard k

/-- Orders only ever add to the nodes that have broken off, so if there is none at the end, there
was none at any time. -/
theorem broken_serveAll (orders : List Order) :
    w.state.broken <+: (w.serveAll orders).state.broken := by
  induction orders generalizing w with
  | nil => exact List.prefix_refl _
  | cons o orders ih => exact (w.broken_serve o).trans (ih (w.serve o))

end Faults

end Estate

end Graph

end TaskMemory

import Mathlib.Control.Monad.Basic
import Mathlib.Logic.Function.Basic
import TaskMemory.Graph.Node

/-!
Nodes of a graph that are completed side by side. Whoever takes a ready node runs it once and then
notifies its successors once. The run, each single decrement, each report and the end of a walk are
one step, and the moves say who takes the next one, so the lists of moves are the interleavings. A
walk that is not interrupted does what `Node.notify` does.
-/
namespace TaskMemory.Graph

/-- How far the completion of a node has come. -/
inductive Stage where
  /-- The node is to run next. -/
  | taken
  /-- The node has run, these successors are still to be decremented, and so many were reported. -/
  | walking (rest : List Handle) (ready : Nat)
  /-- The last decrement brought this successor to zero: it is to be reported next. -/
  | reporting (next : Handle) (rest : List Handle) (ready : Nat)
  deriving DecidableEq

structure Completion where
  node : Handle
  stage : Stage
  deriving DecidableEq

/-- What the completions share: the nodes by their handles, and the handles that are ready. -/
structure Shared where
  nodes : Handle → Node
  env : Environment
  ready : List Handle

/-- The completions under way. -/
structure Progress where
  shared : Shared
  underway : List Completion

/-- What a completion does in one step. -/
inductive Act where
  | ran (node : Handle) (outcome : Except Fault Bool)
  | decremented (source target : Handle)
  | reported (source target : Handle)
  /-- A walk ends, with the count of its reports. -/
  | completed (node : Handle) (ready : Nat)
  /-- A fault ends a walk. -/
  | broken (source : Handle) (fault : Fault)
  deriving DecidableEq

inductive Move where
  /-- Somebody takes a ready node. -/
  | take (node : Handle)
  /-- The completion at this place takes a step. -/
  | advance (place : Nat)

namespace Shared

def decrement (h : Handle) (s : Shared) : Except Fault Bool × Shared :=
  match (s.nodes h).decrement with
  | (last, n) => (last, { s with nodes := Function.update s.nodes h n })

def report (h : Handle) (s : Shared) : Shared := { s with ready := s.ready ++ [h] }

@[simp] theorem nodes_report (h : Handle) (s : Shared) : (s.report h).nodes = s.nodes := rfl

@[simp] theorem ready_report (h : Handle) (s : Shared) : (s.report h).ready = s.ready ++ [h] := rfl

@[simp] theorem ready_decrement (h : Handle) (s : Shared) : (s.decrement h).2.ready = s.ready := rfl

/-- A decrement lowers the wait counter of its node by one. -/
theorem nodes_decrement_self (h : Handle) (s : Shared) : (s.decrement h).2.nodes h =
    { s.nodes h with waitCount := (s.nodes h).waitCount - 1 } :=
  Function.update_self ..

theorem nodes_decrement_of_ne {h k : Handle} (hNe : k ≠ h) (s : Shared) :
    (s.decrement h).2.nodes k = s.nodes k :=
  Function.update_of_ne hNe ..

end Shared

/-- One step of a completion, and the stage it reaches unless that is its end. A fault of the run
ends it before the walk. -/
def Completion.advance (t : Completion) (s : Shared) : Act × Option Stage × Shared :=
  match t.stage with
  | .taken =>
    match (s.nodes t.node).run s.env with
    | (outcome, n, env) =>
      (.ran t.node outcome,
        match outcome with
        | .ok _ => some (.walking n.successors.handles 0)
        | .error _ => none,
        { s with nodes := Function.update s.nodes t.node n, env })
  | .walking [] ready => (.completed t.node ready, none, s)
  | .walking (h :: rest) ready =>
    match s.decrement h with
    | (.error fault, s) => (.broken t.node fault, none, s)
    | (.ok false, s) => (.decremented t.node h, some (.walking rest ready), s)
    | (.ok true, s) => (.decremented t.node h, some (.reporting h rest ready), s)
  | .reporting h rest ready =>
    (.reported t.node h, some (.walking rest (ready + 1)), s.report h)

/-- The payload of a node is spent, and its run leads to this environment. -/
def Shared.spend (g : Handle) (env : Environment) (s : Shared) : Shared :=
  { s with
    nodes := Function.update s.nodes g
      { s.nodes g with payload := { (s.nodes g).payload with spent := true } }
    env }

namespace Shared

@[simp] theorem ready_spend (g : Handle) (env : Environment) (s : Shared) :
    (s.spend g env).ready = s.ready := rfl

/-- A run uses up the payload of its node. -/
theorem nodes_spend_self (g : Handle) (env : Environment) (s : Shared) :
    (s.spend g env).nodes g =
      { s.nodes g with payload := { (s.nodes g).payload with spent := true } } :=
  Function.update_self ..

theorem nodes_spend_of_ne {g k : Handle} (hNe : k ≠ g) (env : Environment) (s : Shared) :
    (s.spend g env).nodes k = s.nodes k :=
  Function.update_of_ne hNe ..

end Shared

/-- A run leaves the payload spent, and finds nothing to do only if it was spent before. -/
theorem node_run_eq (n : Node) (env : Environment) :
    ∃ outcome env', n.run env =
        (outcome, { n with payload := { n.payload with spent := true } }, env') ∧
      (outcome = .ok false ↔ n.payload.spent = true) := by
  obtain ⟨graph, waitCount, ⟨callable, spent⟩, successors⟩ := n
  cases spent with
  | true => exact ⟨_, _, rfl, fun _ => rfl, fun _ => rfl⟩
  | false =>
      rcases hRun : callable.run true env with ⟨_ | fault, after⟩
      · refine ⟨.ok true, after, ?_, by simp⟩
        simp only [Node.run, Payload.invoke, Payload.claim, Bool.not_false, hRun]
      · rcases hDiscard : fault.discard (after.raise (.payloadFailed fault.message
          (Payload.block ⟨callable, true⟩).size)) with ⟨_ | second, last⟩
        · refine ⟨.ok true, last, ?_, by simp⟩
          simp only [Node.run, Payload.invoke, Payload.claim, Bool.not_false, hRun, hDiscard]
        · refine ⟨.error second, last, ?_, by simp⟩
          simp only [Node.run, Payload.invoke, Payload.claim, Bool.not_false, hRun, hDiscard]

namespace Completion

variable {g h : Handle} {rest : List Handle} {ready : Nat} {s : Shared}

/-- A node that has been taken is run. Unless the run ends in a fault, the walk over its successors
comes next, and only a payload that was spent before says that it did not run. -/
theorem advance_taken (g : Handle) (s : Shared) :
    ∃ outcome env, advance ⟨g, .taken⟩ s = (.ran g outcome,
        outcome.toOption.map fun _ => .walking (s.nodes g).successors.handles 0, s.spend g env) ∧
      (outcome = .ok false ↔ (s.nodes g).payload.spent = true) := by
  obtain ⟨outcome, env, hRun, hSpent⟩ := node_run_eq (s.nodes g) s.env
  refine ⟨outcome, env, ?_, hSpent⟩
  cases outcome <;> simp only [advance, hRun] <;> rfl

/-- A decrement at a counter above zero is followed by a report if it was the last one. -/
theorem advance_decrement (hWait : (s.nodes h).waitCount ≠ 0) :
    advance ⟨g, .walking (h :: rest) ready⟩ s = (.decremented g h,
      some (if (s.nodes h).waitCount = 1 then .reporting h rest ready else .walking rest ready),
      (s.decrement h).2) := by
  by_cases hLast : (s.nodes h).waitCount = 1
  · simp [advance, Shared.decrement, Node.decrement, hLast]
  · simp [advance, Shared.decrement, Node.decrement, hWait, hLast]

end Completion

namespace Progress

/-- One step. A move that names no ready node and no completion changes nothing. -/
def step (x : Progress) : Move → Option Act × Progress
  | .take h =>
    if h ∈ x.shared.ready then
      (none, ⟨{ x.shared with ready := x.shared.ready.erase h }, x.underway ++ [⟨h, .taken⟩]⟩)
    else (none, x)
  | .advance i =>
    match x.underway[i]? with
    | none => (none, x)
    | some t =>
      match t.advance x.shared with
      | (act, stage, shared) => (some act, ⟨shared,
          x.underway.take i ++ (stage.map (⟨t.node, ·⟩)).toList ++ x.underway.drop (i + 1)⟩)

/-- What happens along a list of moves, and where it leads. -/
def run (x : Progress) : List Move → List Act × Progress
  | [] => ([], x)
  | move :: rest =>
    match x.step move with
    | (act, x) =>
      match x.run rest with
      | (log, last) => (act.toList ++ log, last)

/-- A step is a completion taken up, or a step of one that is under way, or nothing. -/
theorem step_cases (x : Progress) (move : Move) :
    x.step move = (none, x) ∨
    (∃ h ∈ x.shared.ready, x.step move =
      (none, ⟨{ x.shared with ready := x.shared.ready.erase h }, x.underway ++ [⟨h, .taken⟩]⟩)) ∨
    ∃ before t after, x.underway = before ++ t :: after ∧ x.step move =
      (some (t.advance x.shared).1, ⟨(t.advance x.shared).2.2,
        before ++ ((t.advance x.shared).2.1.map (⟨t.node, ·⟩)).toList ++ after⟩) := by
  cases move with
  | take h =>
      by_cases hMem : h ∈ x.shared.ready
      · exact .inr (.inl ⟨h, hMem, if_pos hMem⟩)
      · exact .inl (if_neg hMem)
  | advance i =>
      rcases hGet : x.underway[i]? with _ | t
      · exact .inl (by rw [step, hGet])
      · obtain ⟨hLt, rfl⟩ := List.getElem?_eq_some_iff.mp hGet
        refine .inr (.inr ⟨x.underway.take i, x.underway[i], x.underway.drop (i + 1), ?_, ?_⟩)
        · rw [← List.drop_eq_getElem_cons hLt, List.take_append_drop]
        · rw [step, hGet]

/-- The act that ends the walk of a node after so many reports, by what is left of the walk. -/
def finish (g : Handle) (ready : Nat) : Except Fault Nat → Act
  | .ok more => .completed g (ready + more)
  | .error fault => .broken g fault

/-- A walk alone notifies as `Node.notify` does. -/
theorem run_notify (g : Handle) (rest : List Handle) (ready : Nat) (s : Shared) :
    ∃ steps log, (⟨s, [⟨g, .walking rest ready⟩]⟩ : Progress).run
        (List.replicate steps (.advance 0)) =
      (log ++ [finish g ready (Node.notify Shared.decrement Shared.report rest s).1],
        ⟨(Node.notify Shared.decrement Shared.report rest s).2, []⟩) := by
  induction rest generalizing ready s with
  | nil => exact ⟨1, [], rfl⟩
  | cons h rest ih =>
      rcases hLast : s.decrement h with ⟨fault | last, after⟩
      · refine ⟨1, [], ?_⟩
        simp [Node.notify, run, step, Completion.advance, hLast, finish]
      · cases last with
        | false =>
            obtain ⟨steps, log, hRun⟩ := ih ready after
            refine ⟨steps + 1, .decremented g h :: log, ?_⟩
            simp [Node.notify, List.replicate_succ, run, step, Completion.advance, hLast, hRun]
        | true =>
            obtain ⟨steps, log, hRun⟩ := ih (ready + 1) (after.report h)
            refine ⟨steps + 2, .decremented g h :: .reported g h :: log, ?_⟩
            rcases hRest : Node.notify Shared.decrement Shared.report rest (after.report h) with
              ⟨fault | more, last⟩
            · rw [hRest] at hRun
              simp [Node.notify, List.replicate_succ, run, step, Completion.advance, hLast, hRun,
                hRest, finish]
            · rw [hRest] at hRun
              simp [Node.notify, List.replicate_succ, run, step, Completion.advance, hLast, hRun,
                hRest, finish, Nat.add_assoc, Nat.add_comm 1]

end Progress
end TaskMemory.Graph

import TaskMemory.Proofs.Graph.Plan
import TaskMemory.Proofs.Parallel

/-!
What the acts so far say about the nodes and the completions under way. Each edge of the graph is
decremented once, by the walk of the node it leaves, so the decrements of a node and those that
walks have yet to make are the edges of the nodes that have run (`Tracks.walked`). A node that has
run was ready at the start or was reported, once, at the last of its edges.
-/
namespace TaskMemory.Graph

namespace Act

/-- The node that an act runs, whether or not the run ends in a fault. -/
def runs : Act → List Handle
  | .ran g _ => [g]
  | .decremented .. | .reported .. | .completed .. | .broken .. => []

/-- The node whose walk an act begins. -/
def begins : Act → List Handle
  | .ran g (.ok _) => [g]
  | .ran _ (.error _) | .decremented .. | .reported .. | .completed .. | .broken .. => []

/-- The node whose walk decrements `h` in an act. -/
def lowers (h : Handle) : Act → List Handle
  | .decremented g target => if target = h then [g] else []
  | .ran .. | .reported .. | .completed .. | .broken .. => []

def reports : Act → List Handle
  | .reported _ h => [h]
  | .ran .. | .decremented .. | .completed .. | .broken .. => []

def completes : Act → List Handle
  | .completed g _ => [g]
  | .ran .. | .decremented .. | .reported .. | .broken .. => []

end Act

/-- A decrement is entered for its node, with the node that it came from. -/
theorem lowers_concat_self (log : List Act) (g h : Handle) :
    (log ++ [Act.decremented g h]).flatMap (Act.lowers h) = log.flatMap (Act.lowers h) ++ [g] := by
  rw [List.flatMap_append, List.flatMap_singleton, Act.lowers, if_pos rfl]

theorem lowers_concat_of_eq_nil (log : List Act) {act : Act} {h : Handle}
    (hAct : act.lowers h = []) :
    (log ++ [act]).flatMap (Act.lowers h) = log.flatMap (Act.lowers h) := by
  rw [List.flatMap_append, List.flatMap_singleton, hAct, List.append_nil]

/-- No decrement is entered for a node that it is not a decrement of. -/
theorem lowers_concat_of_ne (log : List Act) (g : Handle) {h k : Handle} (hNe : k ≠ h) :
    (log ++ [Act.decremented g h]).flatMap (Act.lowers k) = log.flatMap (Act.lowers k) :=
  lowers_concat_of_eq_nil log (if_neg hNe.symm)

/-- A callable begins at most as often as its node is run. -/
theorem count_begins_le (log : List Act) (h : Handle) :
    (log.flatMap Act.begins).count h ≤ (log.flatMap Act.runs).count h := by
  induction log with
  | nil => exact Nat.le_refl _
  | cons act log ih =>
      rw [List.flatMap_cons, List.flatMap_cons, List.count_append, List.count_append]
      refine Nat.add_le_add ?_ ih
      rcases act with ⟨g, _ | _⟩ | _ | _ | _ | _
      · exact Nat.zero_le _
      all_goals exact Nat.le_refl _

namespace Completion

/-- The node that a completion is still to run. -/
def untouched (t : Completion) : List Handle :=
  match t.stage with
  | .taken => [t.node]
  | .walking .. | .reporting .. => []

/-- The node whose walk is under way. -/
def begun (t : Completion) : List Handle :=
  match t.stage with
  | .taken => []
  | .walking .. | .reporting .. => [t.node]

/-- The successors that a completion is still to decrement. -/
def pending (t : Completion) : List Handle :=
  match t.stage with
  | .taken => []
  | .walking rest _ | .reporting _ rest _ => rest

/-- The successor that a completion is to report next. -/
def due (t : Completion) : List Handle :=
  match t.stage with
  | .taken | .walking .. => []
  | .reporting h .. => [h]

end Completion

/-- An act is in order after the acts before it. A payload runs once. A node is reported once, by
the walk that made the last of its decrements, and all its predecessors have run by then. -/
def Act.InOrder (plan : Plan) (before : List Act) : Act → Prop
  | .ran h outcome => h ∉ before.flatMap runs ∧
      (outcome = .ok false ↔ (plan.node h).payload.spent = true)
  | .reported g h => h ∉ plan.initial ∧ h ∉ before.flatMap reports ∧
      (before.flatMap (lowers h)).getLast? = some g ∧
      (before.flatMap (lowers h)).length = plan.indegree h ∧
      ∀ f, plan.Precedes f h → f ∈ before.flatMap begins
  | .decremented _ h => (before.flatMap (lowers h)).length < plan.indegree h
  | .completed h _ => h ∈ before.flatMap begins ∧ h ∉ before.flatMap completes
  | .broken .. => False

/-- The acts so far account for the nodes and for the completions under way. -/
structure Tracks (plan : Plan) (log : List Act) (x : Progress) : Prop where
  successors : ∀ h, (x.shared.nodes h).successors.handles = plan.successors h
  spent : ∀ h, (x.shared.nodes h).payload.spent = true ↔
    (plan.node h).payload.spent = true ∨ h ∈ log.flatMap Act.runs
  counters : ∀ h ∈ plan.handles, (x.shared.nodes h).waitCount.toNat +
    (log.flatMap (Act.lowers h)).length = plan.indegree h
  /-- The decrements of a node, and those to come, are the edges of the nodes that have run. -/
  walked : ∀ h, (log.flatMap (Act.lowers h)).length +
    (x.underway.flatMap Completion.pending).count h =
      ((log.flatMap Act.begins).flatMap plan.successors).count h
  /-- Each time a node becomes ready it is taken and run once. -/
  granted : ∀ h, x.shared.ready.count h + (x.underway.flatMap Completion.untouched).count h +
    (log.flatMap Act.runs).count h = plan.initial.count h + (log.flatMap Act.reports).count h
  begun : ∀ h, (log.flatMap Act.begins).count h =
    (x.underway.flatMap Completion.begun).count h + (log.flatMap Act.completes).count h
  /-- A node is reported, or about to be, from the last of its decrements on. -/
  announced : ∀ h, (log.flatMap Act.reports).count h +
    (x.underway.flatMap Completion.due).count h =
      if plan.indegree h ≠ 0 ∧ (log.flatMap (Act.lowers h)).length = plan.indegree h then 1 else 0
  last : ∀ t ∈ x.underway, ∀ h ∈ t.due, (log.flatMap (Act.lowers h)).getLast? = some t.node
  inOrder : ∀ before act after, log = before ++ act :: after → act.InOrder plan before

namespace Tracks

variable {plan : Plan} {log : List Act} {x : Progress}

theorem start (plan : Plan) (env : Environment) : Tracks plan [] (plan.start env) where
  successors _ := rfl
  spent h := by simp [Plan.start]
  counters h hMem := plan.indegree_of_mem hMem
  walked _ := rfl
  granted _ := rfl
  begun _ := rfl
  announced h := by
    rw [if_neg fun hEdges => hEdges.1 hEdges.2.symm]
    rfl
  last t hMem := by cases hMem
  inOrder before act after hEq := by cases before <;> cases hEq

variable (tracks : Tracks plan log x)

include tracks

/-- A node is ready from the start or is reported as ready, and that at most once. -/
theorem granted_le_one (h : Handle) :
    plan.initial.count h + (log.flatMap Act.reports).count h ≤ 1 := by
  have hAnnounced := tracks.announced h
  by_cases hEdges : plan.indegree h = 0
  · rw [if_neg fun hAll => hAll.1 hEdges] at hAnnounced
    have hOnce := List.nodup_iff_count_le_one.mp plan.nodup_initial h
    omega
  · have hNot : h ∉ plan.initial := fun hMem => hEdges (plan.mem_initial_iff.mp hMem).2
    rw [List.count_eq_zero_of_not_mem hNot]
    split at hAnnounced <;> omega

/-- What becomes ready is a node of the graph. -/
theorem mem_of_granted {h : Handle}
    (hGranted : 0 < plan.initial.count h + (log.flatMap Act.reports).count h) :
    h ∈ plan.handles := by
  by_cases hMem : h ∈ plan.initial
  · exact (plan.mem_initial_iff.mp hMem).1
  · rw [List.count_eq_zero_of_not_mem hMem] at hGranted
    have hAnnounced := tracks.announced h
    split at hAnnounced
    case isTrue hEdges => exact plan.mem_of_indegree_ne_zero hEdges.1
    case isFalse => omega

/-- No callable begins twice. -/
theorem begins_le_one (h : Handle) : (log.flatMap Act.begins).count h ≤ 1 := by
  have hGranted := tracks.granted h
  have hOne := tracks.granted_le_one h
  have hLe := count_begins_le log h
  omega

theorem mem_of_begins {h : Handle} (hMem : h ∈ log.flatMap Act.begins) : h ∈ plan.handles := by
  have hGranted := tracks.granted h
  have hLe := count_begins_le log h
  have hPos := List.count_pos_iff.mpr hMem
  exact tracks.mem_of_granted (by omega)

/-- The edges walked so far and those that are being walked are edges of the graph. -/
theorem walked_le (h : Handle) : (log.flatMap (Act.lowers h)).length +
    (x.underway.flatMap Completion.pending).count h ≤ plan.indegree h := by
  rw [tracks.walked]
  exact count_flatMap_le (List.nodup_iff_count_le_one.mpr tracks.begins_le_one)
    fun g hg _ => tracks.mem_of_begins hg

/-- Whatever a completion still has to decrement is a node of the plan. -/
theorem mem_of_pending {h : Handle} (hMem : h ∈ x.underway.flatMap Completion.pending) :
    h ∈ plan.handles := by
  have hLe := tracks.walked_le h
  have hPos := List.count_pos_iff.mpr hMem
  exact plan.mem_of_indegree_ne_zero (by omega)

/-- A node that is to be decremented does not stand at zero. -/
theorem waitCount_ne_zero {h : Handle} (hMem : h ∈ x.underway.flatMap Completion.pending) :
    (x.shared.nodes h).waitCount ≠ 0 := by
  have hLe := tracks.walked_le h
  have hPos := List.count_pos_iff.mpr hMem
  have hCounter := tracks.counters h (tracks.mem_of_pending hMem)
  intro hZero
  rw [hZero, UInt32.toNat_zero] at hCounter
  omega

/-- All predecessors of a node have run once it has had as many decrements as it has edges. -/
theorem begins_of_precedes {g h : Handle}
    (hEdges : plan.indegree h ≤ (log.flatMap (Act.lowers h)).length)
    (hPrecedes : plan.Precedes g h) : g ∈ log.flatMap Act.begins := by
  by_contra hNot
  have hRest : ((log.flatMap Act.begins).flatMap plan.successors).count h ≤
      ((plan.handles.erase g).flatMap plan.successors).count h :=
    count_flatMap_le (List.nodup_iff_count_le_one.mpr tracks.begins_le_one) fun f hf _ =>
      (List.mem_erase_of_ne (ne_of_mem_of_not_mem hf hNot)).mpr (tracks.mem_of_begins hf)
  have hSplit : plan.indegree h = (plan.successors g).count h +
      ((plan.handles.erase g).flatMap plan.successors).count h := by
    rw [← List.count_append, ← List.flatMap_cons]
    exact ((List.perm_cons_erase hPrecedes.1).flatMap_right _).count_eq h
  have hEdge := List.count_pos_iff.mpr hPrecedes.2
  have hWalked := tracks.walked h
  omega

/-- A node that is to be reported has had all its decrements and was not reported before. -/
theorem of_due {h : Handle} (hMem : h ∈ x.underway.flatMap Completion.due) :
    plan.indegree h ≠ 0 ∧ (log.flatMap (Act.lowers h)).length = plan.indegree h ∧
      h ∉ log.flatMap Act.reports := by
  have hAnnounced := tracks.announced h
  have hPos := List.count_pos_iff.mpr hMem
  split at hAnnounced
  case isTrue hEdges => exact ⟨hEdges.1, hEdges.2, List.count_eq_zero.mp (by omega)⟩
  case isFalse => omega

end Tracks

end TaskMemory.Graph

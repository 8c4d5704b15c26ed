import Mathlib.Data.Fintype.EquivFin
import Mathlib.Data.List.Nodup
import Mathlib.Logic.Relation
import TaskMemory.Proofs.Graph.Completion

/-!
Plans: finite graphs of nodes to be completed. A successor may stand in a list several times, and
then there are several edges to it.
-/
namespace TaskMemory.Graph

/-- Nodes without a cycle, each with a counter that says how often its handle stands in the lists of
successors. -/
structure Plan where
  handles : List Handle
  node : Handle → Node
  nodup : handles.Nodup
  closed : ∀ g ∈ handles, ∀ h ∈ (node g).successors.handles, h ∈ handles
  counted : ∀ h ∈ handles, (node h).waitCount.toNat =
    (handles.flatMap fun g => (node g).successors.handles).count h
  acyclic : ∀ h, ¬ Relation.TransGen
    (fun g h => g ∈ handles ∧ h ∈ (node g).successors.handles) h h

namespace Plan

variable (plan : Plan)

def successors (g : Handle) : List Handle := (plan.node g).successors.handles

/-- An edge of the graph, of which there may be several. -/
def Precedes (g h : Handle) : Prop := g ∈ plan.handles ∧ h ∈ plan.successors g

/-- The number of edges that lead to a node. -/
def indegree (h : Handle) : Nat := (plan.handles.flatMap plan.successors).count h

/-- The nodes that are ready from the start. -/
def initial : List Handle := plan.handles.filter fun h => (plan.node h).isReady

/-- No completion under way. -/
def start (env : Environment) : Progress := ⟨⟨plan.node, env, plan.initial⟩, []⟩

/-- The nodes of a plan wait for as many nodes as have them as a successor. -/
theorem indegree_of_mem {h : Handle} (hMem : h ∈ plan.handles) :
    (plan.node h).waitCount.toNat = plan.indegree h :=
  plan.counted h hMem

/-- Every successor is a node of the plan. -/
theorem mem_of_indegree_ne_zero {h : Handle} (hEdges : plan.indegree h ≠ 0) :
    h ∈ plan.handles := by
  obtain ⟨g, hg, hMem⟩ := List.mem_flatMap.mp (List.count_pos_iff.mp (Nat.pos_of_ne_zero hEdges))
  exact plan.closed g hg h hMem

/-- The nodes that wait for nobody are ready from the start. -/
theorem mem_initial_iff {h : Handle} :
    h ∈ plan.initial ↔ h ∈ plan.handles ∧ plan.indegree h = 0 := by
  rw [initial, List.mem_filter, Node.isReady, decide_eq_true_iff]
  refine and_congr_right fun hMem => ?_
  rw [← plan.indegree_of_mem hMem, ← UInt32.toNat_inj]
  rfl

theorem nodup_initial : plan.initial.Nodup := plan.nodup.filter _

/-- From any node, the way back along the edges comes to an end. -/
theorem wellFounded_precedes : WellFounded plan.Precedes := by
  have hFinite : Finite Handle := Finite.of_injective (fun h => h.raw.toFin)
    fun _ _ hEq => congrArg Handle.mk (UInt32.toFin_inj.mp hEq)
  have hTrans : IsTrans Handle (Relation.TransGen plan.Precedes) := inferInstance
  have hIrrefl : Std.Irrefl (Relation.TransGen plan.Precedes) := ⟨plan.acyclic⟩
  exact Subrelation.wf Relation.TransGen.single
    (Finite.wellFounded_of_trans_of_irrefl (Relation.TransGen plan.Precedes))

end Plan

/-- The edges that leave nodes of a list without repetition are no more than those that leave nodes
of another list which has all their ends. -/
theorem count_flatMap_le {α β : Type} [DecidableEq α] [DecidableEq β] {f : α → List β} {b : β}
    {l l' : List α} (hNodup : l.Nodup) (hMem : ∀ a ∈ l, b ∈ f a → a ∈ l') :
    (l.flatMap f).count b ≤ (l'.flatMap f).count b := by
  induction l generalizing l' with
  | nil => exact Nat.zero_le _
  | cons a l ih =>
      obtain ⟨hHead, hTail⟩ := List.nodup_cons.mp hNodup
      rw [List.flatMap_cons, List.count_append]
      by_cases hb : b ∈ f a
      · have hPerm := (List.perm_cons_erase (hMem a List.mem_cons_self hb)).flatMap_right f
        rw [hPerm.count_eq, List.flatMap_cons, List.count_append]
        refine Nat.add_le_add_left (ih hTail fun c hc hbc => ?_) _
        rw [List.mem_erase_of_ne (ne_of_mem_of_not_mem hc hHead)]
        exact hMem c (List.mem_cons_of_mem a hc) hbc
      · rw [List.count_eq_zero_of_not_mem hb, Nat.zero_add]
        exact ih hTail fun c hc => hMem c (List.mem_cons_of_mem a hc)

/-- Where every edge leads to a higher rank no path comes back. -/
theorem acyclic_of_rank {α : Type} {r : α → α → Prop} (rank : α → Nat)
    (hRank : ∀ a b, r a b → rank a < rank b) (a : α) : ¬ Relation.TransGen r a a := by
  intro hCycle
  have hLt := hCycle.lift rank hRank
  rw [Relation.transGen_eq_self] at hLt
  exact Nat.lt_irrefl _ hLt

/-- A node precedes two others, one of them by two edges, and both precede the last node. -/
def Plan.diamond : Plan where
  handles := [⟨0⟩, ⟨1⟩, ⟨2⟩, ⟨3⟩]
  node h :=
    if h = ⟨0⟩ then ⟨7, 0, ⟨.note 0, false⟩, ⟨[⟨1⟩, ⟨2⟩, ⟨2⟩]⟩⟩
    else if h = ⟨1⟩ then ⟨7, 1, ⟨.note 1, false⟩, ⟨[⟨3⟩]⟩⟩
    else if h = ⟨2⟩ then ⟨7, 2, ⟨.note 2, false⟩, ⟨[⟨3⟩]⟩⟩
    else ⟨7, 2, ⟨.note 3, false⟩, ⟨[]⟩⟩
  nodup := by decide
  closed := by decide
  counted := by decide
  acyclic := by
    refine acyclic_of_rank (fun h => h.raw.toNat) ?_
    rintro g h ⟨hg, hh⟩
    revert h
    revert g
    decide

end TaskMemory.Graph

import Mathlib.Data.List.Enum
import Mathlib.Logic.Function.Basic
import TaskMemory.Graph.Node

/-!
A walk over successors when several of them lead to the same node, be it that a handle stands in the
list more than once, that different handles name one node, or that the node which notifies is its
own successor. What counts for a node is the number of positions that lead to it. It becomes ready
at the last of them, if its counter stood at just this number.
-/
namespace TaskMemory.Graph

variable {ι ω : Type} [DecidableEq ι]

/-- Nodes by identities of any kind, and what whoever hears the reports has made of them. -/
structure Vicinity (ι ω : Type) where
  nodes : ι → Node
  notes : ω

namespace Vicinity

/-- Decrement the node that a handle leads to. -/
def decrement (resolve : Handle → ι) (h : Handle) (v : Vicinity ι ω) :
    Except Fault Bool × Vicinity ι ω :=
  match (v.nodes (resolve h)).decrement with
  | (last, n) => (last, { v with nodes := Function.update v.nodes (resolve h) n })

/-- Report a handle. Whoever hears it sees the nodes as they are then. -/
def report (onReady : Handle → (ι → Node) → ω → ω) (h : Handle) (v : Vicinity ι ω) :
    Vicinity ι ω :=
  { v with notes := onReady h v.nodes v.notes }

/-- The walk over the successors of a node. -/
def notify (resolve : Handle → ι) (onReady : Handle → (ι → Node) → ω → ω) (source : ι)
    (v : Vicinity ι ω) : Except Fault Nat × Vicinity ι ω :=
  Node.notify (decrement resolve) (report onReady) (v.nodes source).successors.handles v

end Vicinity

/-- The number of positions of a list that lead to a node. -/
def multiplicity (resolve : Handle → ι) (list : List Handle) (k : ι) : Nat :=
  (list.map resolve).count k

/-- The nodes after a walk over a list. -/
def lowered (resolve : Handle → ι) (list : List Handle) (nodes : ι → Node) : ι → Node := fun k =>
  { nodes k with
    waitCount := (nodes k).waitCount - UInt32.ofNat (multiplicity resolve list k) }

/-- Whether the handle at a position is the last one that leads to its node, and the counter of the
node stands at the number of positions that do. -/
def settles (resolve : Handle → ι) (nodes : ι → Node) (list : List Handle) (h : Handle) (i : Nat) :
    Bool :=
  resolve h ∉ (list.drop (i + 1)).map resolve ∧
    (nodes (resolve h)).waitCount.toNat = multiplicity resolve list (resolve h)

/-- The handles of a list whose nodes become ready there, with their positions. -/
def settling (resolve : Handle → ι) (nodes : ι → Node) (list : List Handle) :
    List (Handle × Nat) :=
  list.zipIdx.filter fun b => settles resolve nodes list b.1 b.2

variable {resolve : Handle → ι} {nodes : ι → Node} {h : Handle} {rest list : List Handle} {k : ι}

/-- A handle at the front counts once for the node that it resolves to. -/
theorem multiplicity_cons (h : Handle) (rest : List Handle) (k : ι) :
    multiplicity resolve (h :: rest) k =
      multiplicity resolve rest k + if resolve h = k then 1 else 0 := by
  rw [multiplicity, List.map_cons, List.count_cons]
  simp only [beq_iff_eq]
  rfl

/-- The positions of a list are its first one and those behind it. -/
theorem multiplicity_cons_eq (h : Handle) (rest : List Handle) (k : ι) :
    multiplicity resolve (h :: rest) k =
      multiplicity resolve [h] k + multiplicity resolve rest k := by
  rw [multiplicity_cons, multiplicity_cons, Nat.add_comm]
  exact congrArg (· + _) (Nat.zero_add _).symm

/-- A node is told nothing if no handle resolves to it, and only then. -/
theorem multiplicity_eq_zero_iff : multiplicity resolve list k = 0 ↔ k ∉ list.map resolve :=
  List.count_eq_zero

/-- A node whose counter suffices has as much less as there are handles for it. -/
theorem toNat_lowered (hEnough : multiplicity resolve list k ≤ (nodes k).waitCount.toNat) :
    (lowered resolve list nodes k).waitCount.toNat =
      (nodes k).waitCount.toNat - multiplicity resolve list k := by
  have hLt : multiplicity resolve list k < UInt32.size :=
    Nat.lt_of_le_of_lt hEnough (UInt32.toNat_lt _)
  have hCount := UInt32.toNat_ofNat_of_lt' hLt
  have hLe : UInt32.ofNat (multiplicity resolve list k) ≤ (nodes k).waitCount :=
    UInt32.le_iff_toNat_le.mpr (hCount.symm ▸ hEnough)
  exact (UInt32.toNat_sub_of_le _ _ hLe).trans (congrArg (_ - ·) hCount)

theorem lowered_of_eq_zero (hNone : multiplicity resolve list k = 0) :
    lowered resolve list nodes k = nodes k := by
  rw [lowered, hNone]
  exact congrArg (fun w => { nodes k with waitCount := w }) (UInt32.sub_zero _)

/-- A walk decrements for the first handle and then for the others. -/
theorem lowered_cons (h : Handle) (rest : List Handle) (nodes : ι → Node) :
    lowered resolve (h :: rest) nodes = lowered resolve rest (lowered resolve [h] nodes) := by
  funext k
  have hCount : (nodes k).waitCount - UInt32.ofNat (multiplicity resolve (h :: rest) k) =
      (nodes k).waitCount - UInt32.ofNat (multiplicity resolve [h] k) -
        UInt32.ofNat (multiplicity resolve rest k) := by
    rw [multiplicity_cons_eq, UInt32.ofNat_add]
    grind
  simp only [lowered, hCount]

/-- After the first decrement, where counters suffice for the whole list. -/
theorem toNat_lowered_first
    (hEnough : ∀ k, multiplicity resolve (h :: rest) k ≤ (nodes k).waitCount.toNat) (k : ι) :
    (lowered resolve [h] nodes k).waitCount.toNat =
      (nodes k).waitCount.toNat - if resolve h = k then 1 else 0 := by
  have hLe := hEnough k
  rw [multiplicity_cons_eq] at hLe
  rw [toNat_lowered (Nat.le_of_add_right_le hLe), multiplicity_cons]
  exact congrArg (_ - ·) (Nat.zero_add _)

/-- Behind the first position the counters still suffice. -/
theorem le_lowered
    (hEnough : ∀ k, multiplicity resolve (h :: rest) k ≤ (nodes k).waitCount.toNat) (k : ι) :
    multiplicity resolve rest k ≤ (lowered resolve [h] nodes k).waitCount.toNat := by
  have hLe := hEnough k
  rw [multiplicity_cons] at hLe
  rw [toNat_lowered_first hEnough]
  exact Nat.le_sub_of_add_le hLe

/-- A decrement is a walk over a list of one handle. -/
theorem update_decrement (h : Handle) (nodes : ι → Node) :
    Function.update nodes (resolve h) (nodes (resolve h)).decrement.2 =
      lowered resolve [h] nodes := by
  funext k
  by_cases hSame : resolve h = k
  · subst hSame
    rw [Function.update_self, lowered, multiplicity_cons, if_pos rfl]
    rfl
  · have hNone : multiplicity resolve [h] k = 0 := by
      rw [multiplicity_cons, if_neg hSame]
      rfl
    rw [Function.update_of_ne (Ne.symm hSame), lowered_of_eq_zero hNone]

/-- The first handle makes its node ready if the counter of the node is at one. It cannot be that
handles further on name this node too, since the counter suffices for all of them. -/
theorem settles_first (hEnough : multiplicity resolve (h :: rest) (resolve h) ≤
      (nodes (resolve h)).waitCount.toNat) :
    settles resolve nodes (h :: rest) h 0 = decide ((nodes (resolve h)).waitCount = 1) := by
  have hOne : (nodes (resolve h)).waitCount = 1 ↔ (nodes (resolve h)).waitCount.toNat = 1 :=
    UInt32.toNat_inj.symm
  rw [multiplicity_cons, if_pos rfl] at hEnough
  rw [settles, decide_eq_decide, hOne, multiplicity_cons, if_pos rfl, List.drop_succ_cons,
    List.drop_zero, ← multiplicity_eq_zero_iff]
  omega

/-- What the first position takes from a counter, it also takes from the number of positions. -/
theorem settles_later {first : Handle} (i : Nat)
    (hEnough : ∀ k, multiplicity resolve (first :: rest) k ≤ (nodes k).waitCount.toNat) :
    settles resolve nodes (first :: rest) h (i + 1) =
      settles resolve (lowered resolve [first] nodes) rest h i := by
  have hLe := hEnough (resolve h)
  rw [multiplicity_cons] at hLe
  rw [settles, settles, multiplicity_cons, toNat_lowered_first hEnough, List.drop_succ_cons,
    decide_eq_decide]
  refine and_congr_right fun _ => ?_
  omega

/-- The calls for a list are the call for its first handle, if there is one, and those for the rest
from the counters after it. -/
theorem settling_cons
    (hEnough : ∀ k, multiplicity resolve (h :: rest) k ≤ (nodes k).waitCount.toNat) :
    settling resolve nodes (h :: rest) =
      (if (nodes (resolve h)).waitCount = 1 then [(h, 0)] else []) ++
        (settling resolve (lowered resolve [h] nodes) rest).map fun b => (b.1, b.2 + 1) := by
  have hRest : (rest.zipIdx 1).filter (fun b => settles resolve nodes (h :: rest) b.1 b.2) =
      (settling resolve (lowered resolve [h] nodes) rest).map fun b => (b.1, b.2 + 1) := by
    have hShift : rest.zipIdx 1 = rest.zipIdx.map fun b => (b.1, b.2 + 1) := List.zipIdx_succ
    rw [hShift, List.filter_map, settling]
    exact congrArg _ (List.filter_congr fun b _ => settles_later b.2 hEnough)
  rw [settling, List.zipIdx_cons, List.filter_cons, hRest, settles_first (hEnough _)]
  by_cases hOne : (nodes (resolve h)).waitCount = 1
  · rw [if_pos (decide_eq_true hOne), if_pos hOne]
    rfl
  · rw [if_neg (by simpa using hOne), if_neg hOne]
    rfl

/-- A decrement at a counter that is not zero answers whether it was the last one. -/
theorem Vicinity.decrement_eq {v : Vicinity ι ω} (hWait : (v.nodes (resolve h)).waitCount ≠ 0) :
    v.decrement resolve h = (.ok (decide ((v.nodes (resolve h)).waitCount = 1)),
      ⟨lowered resolve [h] v.nodes, v.notes⟩) := by
  rw [decrement, ← update_decrement, Node.decrement, if_neg hWait]

/-- The notes after reports of handles with their positions in a list. Each report comes when the
positions up to its own have been walked. -/
def retell (resolve : Handle → ι) (onReady : Handle → (ι → Node) → ω → ω) (nodes : ι → Node)
    (list : List Handle) (calls : List (Handle × Nat)) (notes : ω) : ω :=
  calls.foldl (fun notes b => onReady b.1 (lowered resolve (list.take (b.2 + 1)) nodes) notes) notes

/-- Calls for handles further on see the nodes after the first decrement. -/
theorem retell_later (onReady : Handle → (ι → Node) → ω → ω) (h : Handle) (rest : List Handle)
    (calls : List (Handle × Nat)) (notes : ω) :
    retell resolve onReady nodes (h :: rest) (calls.map fun b => (b.1, b.2 + 1)) notes =
      retell resolve onReady (lowered resolve [h] nodes) rest calls notes := by
  have hWalked : ∀ i, lowered resolve ((h :: rest).take (i + 1 + 1)) nodes =
      lowered resolve (rest.take (i + 1)) (lowered resolve [h] nodes) := fun i =>
    lowered_cons h (rest.take (i + 1)) nodes
  rw [retell, List.foldl_map, retell]
  simp only [hWalked]

/-- The call for the first handle sees the nodes right after its own decrement. -/
theorem retell_first (onReady : Handle → (ι → Node) → ω → ω) (h : Handle) (rest : List Handle)
    (calls : List (Handle × Nat)) (notes : ω) :
    retell resolve onReady nodes (h :: rest) ((h, 0) :: calls.map fun b => (b.1, b.2 + 1)) notes =
      retell resolve onReady (lowered resolve [h] nodes) rest calls
        (onReady h (lowered resolve [h] nodes) notes) :=
  retell_later onReady h rest calls _

/-- What a walk over a list does to the nodes, and what it tells of them. -/
theorem notify_eq (onReady : Handle → (ι → Node) → ω → ω) (v : Vicinity ι ω)
    (hEnough : ∀ k, multiplicity resolve list k ≤ (v.nodes k).waitCount.toNat) :
    Node.notify (Vicinity.decrement resolve) (Vicinity.report onReady) list v =
      (.ok (settling resolve v.nodes list).length, ⟨lowered resolve list v.nodes,
        retell resolve onReady v.nodes list (settling resolve v.nodes list) v.notes⟩) := by
  induction list generalizing v with
  | nil =>
      have hNone : lowered resolve [] v.nodes = v.nodes := funext fun k => lowered_of_eq_zero rfl
      rw [hNone]
      rfl
  | cons h rest ih =>
      have hWait : (v.nodes (resolve h)).waitCount ≠ 0 := by
        have hLe := hEnough (resolve h)
        rw [multiplicity_cons, if_pos rfl] at hLe
        exact fun hZero => absurd (hZero ▸ hLe) (Nat.not_succ_le_zero _)
      have hAfter := fun notes => ih ⟨lowered resolve [h] v.nodes, notes⟩ (le_lowered hEnough)
      rw [settling_cons hEnough, lowered_cons h rest, Node.notify, Vicinity.decrement_eq hWait]
      by_cases hOne : (v.nodes (resolve h)).waitCount = 1
      · simp only [decide_eq_true hOne, if_pos hOne, Vicinity.report, hAfter]
        rw [List.singleton_append, List.length_cons, List.length_map, retell_first]
      · simp only [decide_eq_false hOne, if_neg hOne, hAfter]
        rw [List.nil_append, List.length_map, retell_later]

/-- A handle leads to a call if no handle behind it resolves to its node, and if there are as many
handles for the node as it waits for. -/
theorem mem_settling_iff {i : Nat} : (h, i) ∈ settling resolve nodes list ↔
    list[i]? = some h ∧ (∀ j g, i < j → list[j]? = some g → resolve g ≠ resolve h) ∧
      (nodes (resolve h)).waitCount.toNat = multiplicity resolve list (resolve h) := by
  have hLast : resolve h ∉ (list.drop (i + 1)).map resolve ↔
      ∀ j g, i < j → list[j]? = some g → resolve g ≠ resolve h := by
    rw [List.mem_map, not_exists]
    constructor
    · intro hNone j g hj hGet hSame
      refine hNone g ⟨List.mem_iff_getElem?.mpr ⟨j - (i + 1), ?_⟩, hSame⟩
      rwa [List.getElem?_drop, Nat.add_sub_cancel' hj]
    · rintro hNone g ⟨hMem, hSame⟩
      obtain ⟨j, hGet⟩ := List.mem_iff_getElem?.mp hMem
      rw [List.getElem?_drop] at hGet
      exact hNone _ g (by omega) hGet hSame
  rw [settling, List.mem_filter, List.mk_mem_zipIdx_iff_getElem?, settles, decide_eq_true_iff,
    hLast]

/-- Calls come in the order of the list. -/
theorem pairwise_settling (resolve : Handle → ι) (nodes : ι → Node) (list : List Handle) :
    (settling resolve nodes list).Pairwise fun a b => a.2 < b.2 := by
  have hOrder : (list.zipIdx.map Prod.snd).Pairwise (· < ·) := by
    rw [List.zipIdx_map_snd]
    exact List.pairwise_lt_range'
  exact (List.pairwise_map.mp hOrder).filter _

/-- A node is reported once if its counter stands at the number of positions that lead to it, and
there are some. -/
theorem countP_settling (hEnough : ∀ k, multiplicity resolve list k ≤ (nodes k).waitCount.toNat)
    (k : ι) : (settling resolve nodes list).countP (fun b => resolve b.1 = k) =
      if 0 < multiplicity resolve list k ∧
        (nodes k).waitCount.toNat = multiplicity resolve list k then 1 else 0 := by
  induction list generalizing nodes with
  | nil => rfl
  | cons h rest ih =>
      have hRest := ih (le_lowered hEnough)
      have hHere := hEnough k
      have hOne : (nodes (resolve h)).waitCount = 1 ↔ (nodes (resolve h)).waitCount.toNat = 1 :=
        UInt32.toNat_inj.symm
      have hHead : (if (nodes (resolve h)).waitCount = 1 then [(h, 0)] else []).countP
          (fun b => resolve b.1 = k) =
            if (nodes (resolve h)).waitCount.toNat = 1 ∧ resolve h = k then 1 else 0 := by
        by_cases hLast : (nodes (resolve h)).waitCount.toNat = 1 <;> simp [hOne, hLast]
      rw [settling_cons hEnough, List.countP_append, List.countP_map, hHead]
      change _ + (settling resolve (lowered resolve [h] nodes) rest).countP
        (fun b => resolve b.1 = k) = _
      rw [hRest, toNat_lowered_first hEnough]
      rw [multiplicity_cons] at hHere ⊢
      by_cases hSame : resolve h = k
      · subst hSame
        simp only [if_true, and_true] at hHere ⊢
        split <;> split <;> split <;> omega
      · simp only [hSame, if_false, and_false, Nat.zero_add, Nat.add_zero, Nat.sub_zero]

/-- What a walk over a list does to the nodes, and what it tells of them in these calls, each a
handle with its position. -/
structure Tells (resolve : Handle → ι) (onReady : Handle → (ι → Node) → ω → ω)
    (list : List Handle) (v : Vicinity ι ω) (outcome : Except Fault Nat × Vicinity ι ω)
    (calls : List (Handle × Nat)) : Prop where
  counters : ∀ k, (outcome.2.nodes k).waitCount.toNat + multiplicity resolve list k =
    (v.nodes k).waitCount.toNat
  /-- Nothing else about a node changes. -/
  keeps : ∀ k, outcome.2.nodes k = { v.nodes k with waitCount := (outcome.2.nodes k).waitCount }
  others : ∀ k, multiplicity resolve list k = 0 → outcome.2.nodes k = v.nodes k
  /-- A call is made at the last position that leads to a node, if the counter of the node stood at
  the number of these positions. -/
  made : ∀ h i, (h, i) ∈ calls ↔ list[i]? = some h ∧
    (∀ j g, i < j → list[j]? = some g → resolve g ≠ resolve h) ∧
    (v.nodes (resolve h)).waitCount.toNat = multiplicity resolve list (resolve h)
  inOrder : calls.Pairwise fun a b => a.2 < b.2
  once : ∀ k, calls.countP (fun b => resolve b.1 = k) =
    if 0 < multiplicity resolve list k ∧
      (v.nodes k).waitCount.toNat = multiplicity resolve list k then 1 else 0
  /-- Each call comes when the positions up to its own have been walked. -/
  heard : outcome.2.notes = retell resolve onReady v.nodes list calls v.notes
  count : outcome.1 = .ok calls.length

/-- Whatever node notifies, and whatever its successors resolve to: if no counter stands below the
number of positions that lead to its node, the walk lowers each by this number, and it reports the
nodes that become ready, each at the last of its positions. -/
theorem Vicinity.notify_tells (resolve : Handle → ι) (onReady : Handle → (ι → Node) → ω → ω)
    (source : ι) (v : Vicinity ι ω)
    (hEnough : ∀ k, multiplicity resolve (v.nodes source).successors.handles k ≤
      (v.nodes k).waitCount.toNat) :
    ∃ calls, Tells resolve onReady (v.nodes source).successors.handles v
      (v.notify resolve onReady source) calls := by
  have hWalk := notify_eq onReady v hEnough
  refine ⟨settling resolve v.nodes (v.nodes source).successors.handles, ?_⟩
  rw [notify, hWalk]
  constructor
  case counters =>
    intro k
    rw [toNat_lowered (hEnough k)]
    exact Nat.sub_add_cancel (hEnough k)
  case keeps => exact fun k => rfl
  case others =>
    exact fun k hNone => lowered_of_eq_zero hNone
  case made => exact fun h i => mem_settling_iff
  case inOrder => exact pairwise_settling ..
  case once => exact countP_settling hEnough
  case heard => rfl
  case count => rfl

/-- Three nodes. The first one has itself among its successors, and two handles for the second one,
which waits for all the three positions that they take up; the third one waits for one more. -/
def Vicinity.entangled : Vicinity (Fin 3) (List (Handle × List UInt32)) where
  nodes k :=
    { graph := 0
      waitCount := #[1, 3, 2][k]
      payload := { callable := .idle }
      successors := ⟨if k = 0 then [⟨1⟩, ⟨5⟩, ⟨1⟩, ⟨2⟩, ⟨0⟩] else []⟩ }
  notes := []

/-- The second node has the handles 1 and 5. -/
def Vicinity.entangledAt (h : Handle) : Fin 3 := if h.raw = 0 then 0 else if h.raw = 2 then 2 else 1

/-- Note the handle, with the counters as they stand. -/
def Vicinity.noting (h : Handle) (nodes : Fin 3 → Node) (notes : List (Handle × List UInt32)) :
    List (Handle × List UInt32) :=
  notes ++ [(h, (List.finRange 3).map fun k => (nodes k).waitCount)]

/-- The second node is reported at the last of its positions, with the first counter as it was, and
the first node after that. -/
theorem Vicinity.notify_tells_entangled :
    (∀ k, multiplicity entangledAt (entangled.nodes 0).successors.handles k ≤
      (entangled.nodes k).waitCount.toNat) ∧
    (∃ calls, Tells entangledAt noting (entangled.nodes 0).successors.handles entangled
      (entangled.notify entangledAt noting 0) calls ∧ calls.length = 2) ∧
    (entangled.notify entangledAt noting 0).2.notes = [(⟨1⟩, [1, 0, 2]), (⟨0⟩, [0, 0, 1])] := by
  have hEnough : ∀ k, multiplicity entangledAt (entangled.nodes 0).successors.handles k ≤
      (entangled.nodes k).waitCount.toNat := by decide +kernel
  obtain ⟨calls, tells⟩ := notify_tells entangledAt noting 0 entangled hEnough
  have hTwo : (entangled.notify entangledAt noting 0).1 = .ok 2 := by rfl
  exact ⟨hEnough, ⟨calls, tells, Except.ok.inj (tells.count.symm.trans hTwo)⟩, by decide +kernel⟩

end TaskMemory.Graph

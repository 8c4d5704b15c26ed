import Mathlib.Algebra.Group.Nat.Defs
import Mathlib.Logic.Function.Iterate
import TaskMemory.Graph.Node

/-!
Decrements of one node, one after the other, and what becomes of those for which there is no
dependency left. A decrement moves the counter before it looks at it, so one that is refused has
moved the counter all the same: to the largest number there is. Up to the first refusal the counter
falls to zero, one call answers that it was the last one, and the node stays ready; from the refusal
on the node waits once more, and in time a further call will answer so.
-/
namespace TaskMemory.Node

/-- A node after so many decrements, whether or not they were refused. -/
def decremented (n : Node) (calls : Nat) : Node := (fun n => n.decrement.2)^[calls] n

/-- What a decrement answers after so many others. -/
def answer (n : Node) (earlier : Nat) : Except Fault Bool := (n.decremented earlier).decrement.1

/-- At most one of so many decrements answers that it was the last one. -/
def AnswersOnce (n : Node) (calls : Nat) : Prop :=
  ∀ i j, i < calls → j < calls → n.answer i = .ok true → n.answer j = .ok true → i = j

/-- A decrement that is refused leaves the counter as it was. -/
def RefusesIdly (n : Node) (calls : Nat) : Prop :=
  ∀ i < calls, ∀ fault, n.answer i = .error fault →
    (n.decremented (i + 1)).waitCount = (n.decremented i).waitCount

/-- The counter never increases. -/
def Falls (n : Node) (calls : Nat) : Prop :=
  ∀ i j, i ≤ j → j ≤ calls → (n.decremented j).waitCount ≤ (n.decremented i).waitCount

/-- Once the node is ready it stays so. -/
def StaysReady (n : Node) (calls : Nat) : Prop :=
  ∀ i j, i ≤ j → j ≤ calls → (n.decremented i).isReady = true → (n.decremented j).isReady = true

/-- So many decrements are a countdown. -/
structure CountsDown (n : Node) (calls : Nat) : Prop where
  once : n.AnswersOnce calls
  idle : n.RefusesIdly calls
  falls : n.Falls calls
  stays : n.StaysReady calls

variable (n : Node) (calls : Nat)

theorem decremented_succ : n.decremented (calls + 1) = (n.decremented calls).decrement.2 :=
  Function.iterate_succ_apply' _ calls n

/-- Each call takes one from the counter, as words are subtracted. -/
theorem waitCount_decremented :
    (n.decremented calls).waitCount = n.waitCount - UInt32.ofNat calls := by
  induction calls with
  | zero => exact (UInt32.sub_zero _).symm
  | succ calls ih =>
      have hStep : (n.decremented (calls + 1)).waitCount =
          (n.decremented calls).waitCount - 1 := by rw [decremented_succ, decrement]
      have hOne : UInt32.ofNat (calls + 1) = UInt32.ofNat calls + 1 := UInt32.ofNat_add ..
      rw [hStep, ih, hOne]
      grind

theorem graph_decremented : (n.decremented calls).graph = n.graph := by
  induction calls with
  | zero => rfl
  | succ calls ih => rw [decremented_succ, decrement, ih]

/-- The counter stands at a value whenever the calls have come round to it. -/
theorem waitCount_decremented_eq_iff (v : UInt32) : (n.decremented calls).waitCount = v ↔
    calls % 2 ^ 32 = (n.waitCount - v).toNat := by
  have hMove : n.waitCount - UInt32.ofNat calls = v ↔ UInt32.ofNat calls = n.waitCount - v := by
    constructor
    · intro h
      rw [← h]
      grind
    · intro h
      rw [h]
      grind
  rw [waitCount_decremented, hMove, ← UInt32.toNat_inj, UInt32.toNat_ofNat']

variable {n calls}

/-- Up to the initial count nothing is carried. -/
theorem toNat_decremented (h : calls ≤ n.waitCount.toNat) :
    (n.decremented calls).waitCount.toNat = n.waitCount.toNat - calls := by
  have hOfNat : (UInt32.ofNat calls).toNat = calls :=
    UInt32.toNat_ofNat_of_lt' (Nat.lt_of_le_of_lt h n.waitCount.toNat_lt)
  rw [waitCount_decremented, UInt32.toNat_sub_of_le _ _
    (UInt32.le_iff_toNat_le.mpr (Nat.le_trans (Nat.le_of_eq hOfNat) h)), hOfNat]

/-- What a call answers depends on the counter that it finds. -/
theorem answer_eq : n.answer calls = if (n.decremented calls).waitCount = 0
    then .error (.belowZero n.graph) else .ok ((n.decremented calls).waitCount = 1) := by
  rw [answer, decrement, graph_decremented]

/-- A call is refused if it finds the counter at zero, and only then. -/
theorem answer_eq_error_iff {fault : Fault} : n.answer calls = .error fault ↔
    (n.decremented calls).waitCount = 0 ∧ fault = .belowZero n.graph := by
  rw [answer_eq]
  split
  · next hZero => simp [hZero, eq_comm]
  · next hZero => simp [hZero]

/-- A call answers that the node is ready if it takes the counter from one to zero, which happens
once in `2 ^ 32` calls. -/
theorem answer_eq_true_iff :
    n.answer calls = .ok true ↔ calls % 2 ^ 32 = (n.waitCount - 1).toNat := by
  rw [← waitCount_decremented_eq_iff, answer_eq]
  split
  · next hZero => simp [hZero]
  · simp

/-- A decrement that is refused leaves the largest number there is. -/
theorem waitCount_of_error {fault : Fault} (h : n.answer calls = .error fault) :
    (n.decremented (calls + 1)).waitCount = 4294967295 := by
  have hZero := (answer_eq_error_iff.mp h).1
  rw [decremented_succ, decrement, hZero]
  rfl

/-- As many decrements as there are dependencies leave the node ready, and one more is refused. -/
theorem answer_surplus (n : Node) : (n.decremented n.waitCount.toNat).waitCount = 0 ∧
    n.answer n.waitCount.toNat = .error (.belowZero n.graph) := by
  have hZero : (n.decremented n.waitCount.toNat).waitCount = 0 :=
    UInt32.toNat_inj.mp ((toNat_decremented (Nat.le_refl _)).trans (Nat.sub_self _))
  exact ⟨hZero, answer_eq_error_iff.mpr ⟨hZero, rfl⟩⟩

/-- The first surplus call leaves the largest word in the counter. -/
theorem waitCount_surplus (n : Node) :
    (n.decremented (n.waitCount.toNat + 1)).waitCount = 4294967295 :=
  waitCount_of_error (answer_surplus n).2

/-- A second positive answer takes another `2 ^ 32` calls. -/
theorem answersOnce_iff : n.AnswersOnce calls ↔ calls ≤ (n.waitCount - 1).toNat + 2 ^ 32 := by
  have hLt : (n.waitCount - 1).toNat < 2 ^ 32 := UInt32.toNat_lt _
  constructor
  · intro once
    by_contra hMore
    -- The counter comes round to one after as many further calls as a word has values.
    have hFirst : n.answer (n.waitCount - 1).toNat = .ok true :=
      answer_eq_true_iff.mpr (Nat.mod_eq_of_lt hLt)
    have hSecond : n.answer ((n.waitCount - 1).toNat + 2 ^ 32) = .ok true :=
      answer_eq_true_iff.mpr (by rw [Nat.add_mod_right, Nat.mod_eq_of_lt hLt])
    have hSame := once _ _ (by omega) (Nat.lt_of_not_le hMore) hFirst hSecond
    omega
  · intro hLe i j hi hj hiTrue hjTrue
    have hi' := answer_eq_true_iff.mp hiTrue
    have hj' := answer_eq_true_iff.mp hjTrue
    omega

/-- A refused call has lowered the counter all the same, so a countdown ends with the first one. -/
theorem refusesIdly_iff : n.RefusesIdly calls ↔ calls ≤ n.waitCount.toNat := by
  obtain ⟨hZero, hRefused⟩ := answer_surplus n
  constructor
  · intro idle
    by_contra hMore
    have hSame := idle _ (Nat.lt_of_not_le hMore) _ hRefused
    rw [waitCount_surplus, hZero] at hSame
    exact absurd hSame (by decide)
  · intro hLe i hi fault hError
    have hWait := congrArg UInt32.toNat (answer_eq_error_iff.mp hError).1
    rw [toNat_decremented (by omega)] at hWait
    change _ = 0 at hWait
    omega

/-- The counter falls only until it is at zero. -/
theorem falls_iff : n.Falls calls ↔ calls ≤ n.waitCount.toNat := by
  constructor
  · intro falls
    by_contra hMore
    have hLe := falls _ _ (Nat.le_succ _) (Nat.lt_of_not_le hMore)
    rw [waitCount_surplus, (answer_surplus n).1] at hLe
    exact absurd hLe (by decide)
  · intro hLe i j hij hj
    rw [UInt32.le_iff_toNat_le, toNat_decremented (by omega), toNat_decremented (by omega)]
    omega

/-- A node that is ready stays so only until the first surplus call. -/
theorem staysReady_iff : n.StaysReady calls ↔ calls ≤ n.waitCount.toNat := by
  constructor
  · intro stays
    by_contra hMore
    have hReady := stays _ _ (Nat.le_succ _) (Nat.lt_of_not_le hMore)
      (decide_eq_true (answer_surplus n).1)
    rw [isReady, waitCount_surplus] at hReady
    exact absurd hReady (by decide)
  · intro hLe i j hij hj hReady
    have hWait := congrArg UInt32.toNat (of_decide_eq_true hReady)
    rw [toNat_decremented (by omega)] at hWait
    change _ = 0 at hWait
    obtain rfl : i = j := by omega
    exact hReady

/-- So many decrements of a node are a countdown just as long as there is a dependency left for each
of them. The first one beyond that is refused and starts the counter over from the largest number,
and from there it takes a full round until a second call answers that it was the last one. -/
theorem countsDown_iff (n : Node) (calls : Nat) :
    (n.CountsDown calls ↔ calls ≤ n.waitCount.toNat) ∧
    (n.AnswersOnce calls ↔ calls ≤ (n.waitCount - 1).toNat + 2 ^ 32) ∧
    (n.RefusesIdly calls ↔ calls ≤ n.waitCount.toNat) ∧
    (n.Falls calls ↔ calls ≤ n.waitCount.toNat) ∧
    (n.StaysReady calls ↔ calls ≤ n.waitCount.toNat) ∧
    ∀ i, n.answer i = (if (n.decremented i).waitCount = 0 then .error (.belowZero n.graph)
        else .ok ((n.decremented i).waitCount = 1)) ∧
      ∀ fault, n.answer i = .error fault → (n.decremented (i + 1)).waitCount = 4294967295 := by
  refine ⟨⟨fun counts => falls_iff.mp counts.falls, fun hLe => ?_⟩, answersOnce_iff,
    refusesIdly_iff, falls_iff, staysReady_iff, fun i => ⟨answer_eq, fun _ => waitCount_of_error⟩⟩
  have hOnce : calls ≤ (n.waitCount - 1).toNat + 2 ^ 32 := by
    have := n.waitCount.toNat_lt
    omega
  exact ⟨answersOnce_iff.mpr hOnce, refusesIdly_iff.mpr hLe, falls_iff.mpr hLe,
    staysReady_iff.mpr hLe⟩

/-- A node that waits for one other. -/
def single : Node :=
  { graph := 0, waitCount := 1, payload := { callable := .idle }, successors := {} }

/-- One call too many is refused and undoes that the node is ready. In the end of a full round
another call answers that it was the last one. -/
theorem single_surplus : single.answer 0 = .ok true ∧ (single.decremented 1).isReady = true ∧
    single.answer 1 = .error (.belowZero 0) ∧ (single.decremented 2).waitCount = 4294967295 ∧
    (single.decremented 2).isReady = false ∧ single.answer 4294967296 = .ok true ∧
    ¬single.CountsDown 2 ∧ ¬single.AnswersOnce 4294967297 :=
  ⟨rfl, by decide, rfl, by decide, by decide, answer_eq_true_iff.mpr (by decide),
    fun counts => absurd (falls_iff.mp counts.falls) (by decide),
    fun once => absurd (answersOnce_iff.mp once) (by decide)⟩

end TaskMemory.Node

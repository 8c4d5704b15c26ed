import TaskMemory.Fault
import TaskMemory.Proofs.Memory.Gauge

/-!
Snapshots of the counters of a layer that is in use. The four counters are loaded one after the
other, and threads may go on in between. The deallocations are loaded after the allocations, so
blocks that have come and gone meanwhile make them the larger number, and the number of live blocks
underflows. The bytes are added before the peak is raised, so a snapshot can fall in between.
-/
namespace TaskMemory

/-- The number of live blocks, by a subtraction that is checked. -/
def Ledger.liveBlocks? (l : Ledger) : Except Fault Nat :=
  if l.deallocations ≤ l.allocations then .ok l.liveBlocks else .error .subtractOverflow

namespace Ledger

variable {l : Ledger} {n : Nat}

/-- Live blocks can be told where at least as many were granted as returned. -/
theorem liveBlocks?_of_eq (h : l.allocations = l.deallocations + n) : l.liveBlocks? = .ok n := by
  rw [liveBlocks?, if_pos (h ▸ Nat.le_add_right ..), liveBlocks, h, Nat.add_sub_cancel_left]

/-- If fewer blocks were granted than returned, to tell the live blocks breaks off. -/
theorem liveBlocks?_of_lt (h : l.allocations < l.deallocations) :
    l.liveBlocks? = .error .subtractOverflow :=
  if_neg (Nat.not_le_of_lt h)

end Ledger

namespace Gauge

variable {x : Crowd Gauge Call} {inner : Resource} {log : List Act}

/-- The four loads, each at its own instant. -/
def snapshot (first second third fourth : Crowd Gauge Call) : Ledger where
  allocations := first.shared.ledger.allocations
  deallocations := second.shared.ledger.deallocations
  liveBytes := third.shared.ledger.liveBytes
  peakBytes := fourth.shared.ledger.peakBytes

/-- The blocks of a call that have been counted as allocated and not yet as deallocated. -/
def Call.blocks : Call → Nat
  | .raising _ | .peaking .. | .deducting _ => 1
  | .asking _ | .counting _ | .lowering _ | .returning _ => 0

/-- The bytes of a call that have been added and not yet been taken off. -/
def Call.bytes : Call → Nat
  | .peaking block _ | .deducting block | .lowering block => block.size
  | .asking _ | .counting _ | .raising _ | .returning _ => 0

/-- The blocks that count as out: those handed out, and those of calls under way. -/
def blocks (x : Crowd Gauge Call) : Nat :=
  x.shared.out.length + (x.underway.map Call.blocks).sum

/-- The bytes that count as out. -/
def bytes (x : Crowd Gauge Call) : Nat :=
  (x.shared.out.map Layout.size).sum + (x.underway.map Call.bytes).sum

/-- What the counters say at any one instant. -/
structure Balanced (x : Crowd Gauge Call) : Prop where
  allocations : x.shared.ledger.allocations = x.shared.ledger.deallocations + blocks x
  liveBytes : x.shared.ledger.liveBytes = bytes x

/-- What a step makes of the counters and of what counts as out. -/
structure Call.Shifts (t : Call) (g : Gauge) (act : Act) (rest : Option Call) (g' : Gauge) :
    Prop where
  blocks : g'.ledger.allocations + g.ledger.deallocations + (g.out.length + t.blocks) =
    g.ledger.allocations + g'.ledger.deallocations + (g'.out.length + rest.elim 0 Call.blocks)
  bytes : t.bytes ≤ g.ledger.liveBytes →
    g'.ledger.liveBytes + ((g.out.map Layout.size).sum + t.bytes) =
      g.ledger.liveBytes + ((g'.out.map Layout.size).sum + rest.elim 0 Call.bytes)
  deallocations : g'.ledger.deallocations =
    g.ledger.deallocations + if act = .deducted then 1 else 0

/-- Every step of a call is one of the shifts. -/
theorem Call.shifts_advance (t : Call) (g : Gauge) :
    t.Shifts g (t.advance g).1 (t.advance g).2.1 (t.advance g).2.2 := by
  constructor
  case blocks =>
    cases t with
    | asking block =>
        rcases hInner : g.inner.allocate block with ⟨_ | _, inner, events⟩ <;>
          simp [Call.advance, hInner, Call.blocks]
    | counting | deducting => simp only [Call.advance, Call.blocks, Option.elim_some]; omega
    | raising | peaking | lowering | returning => simp [Call.advance, Call.blocks]
  case bytes =>
    intro hBytes
    cases t with
    | asking block =>
        rcases hInner : g.inner.allocate block with ⟨_ | _, inner, events⟩ <;>
          simp [Call.advance, hInner, Call.bytes]
    | counting block => simp [Call.advance, Call.bytes]
    | raising block => simp [Call.advance, Call.bytes]; omega
    | peaking block live => simp [Call.advance, Call.bytes]; omega
    | deducting block => simp [Call.advance, Call.bytes]
    | lowering block => simp [Call.advance, Call.bytes] at hBytes ⊢; omega
    | returning block => simp [Call.advance, Call.bytes]
  case deallocations => cases t <;> rfl

/-- A call that starts asks for a block, or has one to give back that was out. -/
theorem start_cases {g g' : Gauge} {t : Call} {request : Request}
    (hStart : users.start request g = some (t, g')) :
    (∃ block, t = .asking block ∧ g' = g) ∨
      ∃ block ∈ g.out, t = .deducting block ∧ g' = { g with out := g.out.erase block } := by
  cases request with
  | allocate block =>
      cases hStart
      exact .inl ⟨block, rfl, rfl⟩
  | deallocate block =>
      simp only [users] at hStart
      split at hStart
      · next hOut =>
          cases hStart
          exact .inr ⟨block, hOut, rfl, rfl⟩
      · cases hStart

theorem ledger_start {g g' : Gauge} {t : Call} {request : Request}
    (hStart : users.start request g = some (t, g')) : g'.ledger = g.ledger := by
  obtain ⟨block, -, rfl⟩ | ⟨block, -, -, rfl⟩ := start_cases hStart
  · rfl
  · rfl

/-- A call that starts keeps the balance. -/
theorem balanced_start {g g' : Gauge} {calls : List Call} {t : Call} {request : Request}
    (balanced : Balanced ⟨g, calls⟩) (hStart : users.start request g = some (t, g')) :
    Balanced ⟨g', calls ++ [t]⟩ := by
  have hBlocks := balanced.allocations
  have hBytes := balanced.liveBytes
  simp only [blocks, bytes] at hBlocks hBytes
  have hLast : ∀ f : Call → Nat, ((calls ++ [t]).map f).sum = (calls.map f).sum + f t := by simp
  obtain ⟨block, rfl, rfl⟩ | ⟨block, hOut, rfl, rfl⟩ := start_cases hStart
  · constructor
    · simpa only [blocks, hLast, Call.blocks, Nat.add_zero] using hBlocks
    · simpa only [bytes, hLast, Call.bytes, Nat.add_zero] using hBytes
  · have hLength := List.length_erase_add_one hOut
    have hSum := List.sum_map_erase Layout.size hOut
    constructor
    · simp only [blocks, hLast, Call.blocks]
      omega
    · simp only [bytes, hLast, Call.bytes]
      omega

/-- Each step of a call keeps the balance: what it enters in one counter it has entered, or will
enter, in the other ones. -/
theorem balanced_advance {g g' : Gauge} {before after : List Call} {t : Call} {act : Act}
    {rest : Option Call} (balanced : Balanced ⟨g, before ++ t :: after⟩)
    (shifts : t.Shifts g act rest g') : Balanced ⟨g', before ++ rest.toList ++ after⟩ := by
  have hBlocks := balanced.allocations
  have hBytes := balanced.liveBytes
  have hLeft : ∀ f : Call → Nat, (rest.toList.map f).sum = rest.elim 0 f := by
    cases rest <;> simp
  simp only [blocks, bytes, List.map_append, List.sum_append, List.map_cons, List.sum_cons]
    at hBlocks hBytes
  have hShift := shifts.blocks
  have hMoved := shifts.bytes (by omega)
  constructor
  · simp only [blocks, List.map_append, List.sum_append, hLeft]
    omega
  · simp only [bytes, List.map_append, List.sum_append, hLeft]
    omega

theorem balanced_opening (inner : Resource) : Balanced (opening inner) := ⟨rfl, rfl⟩

/-- The counters are right at any instant, and each deallocation is counted by one step. -/
theorem balanced_run (balanced : Balanced x) (moves : List (Move Request)) :
    Balanced (users.run x moves).2 ∧
      (users.run x moves).2.shared.ledger.deallocations =
        x.shared.ledger.deallocations + (users.run x moves).1.count .deducted := by
  apply Rules.run_keeps (P := fun y log => Balanced y ∧ y.shared.ledger.deallocations =
    x.shared.ledger.deallocations + log.count Act.deducted)
  case hNone => exact ⟨balanced, rfl⟩
  case hStart =>
    intro g g' calls log request t hKept hStart
    refine ⟨balanced_start hKept.1 hStart, ?_⟩
    show g'.ledger.deallocations = _
    rw [ledger_start hStart]
    exact hKept.2
  case hAdvance =>
    intro g g' before t after act rest log hKept hAdvance
    have shifts : t.Shifts g act rest g' := by
      have hShifts := t.shifts_advance g
      rwa [Option.some.inj hAdvance] at hShifts
    refine ⟨balanced_advance hKept.1 shifts, ?_⟩
    have hCount : g.ledger.deallocations =
        x.shared.ledger.deallocations + log.count .deducted := hKept.2
    show g'.ledger.deallocations = _
    rw [shifts.deallocations, hCount, List.count_append, List.count_singleton, Nat.add_assoc]
    simp

/-- No step lowers the peak. -/
theorem Call.peakBytes_le_advance (t : Call) (g : Gauge) :
    g.ledger.peakBytes ≤ (t.advance g).2.2.ledger.peakBytes := by
  cases t with
  | peaking block live => exact Nat.le_max_left ..
  | asking | counting | raising | deducting | lowering | returning => exact Nat.le_refl _

/-- Bytes are added by a call that raises the peak next. -/
theorem Call.liveBytes_advance (t : Call) (g : Gauge) :
    (t.advance g).2.2.ledger.liveBytes ≤ g.ledger.liveBytes ∨
      ∃ block, (t.advance g).2.1 = some (.peaking block (t.advance g).2.2.ledger.liveBytes) := by
  cases t with
  | raising block => exact .inr ⟨block, rfl⟩
  | lowering block => exact .inl (Nat.sub_le ..)
  | asking | counting | peaking | deducting | returning => exact .inl (Nat.le_refl _)

/-- So many bytes show in the peak, or a call that was under way at this time is still about to
raise it to as many. -/
def Shown (x : Crowd Gauge Call) (n : Nat) (y : Crowd Gauge Call) : Prop :=
  n ≤ y.shared.ledger.peakBytes ∨
    ∃ block live, n ≤ live ∧ Call.peaking block live ∈ x.underway ∧
      Call.peaking block live ∈ y.underway

/-- What shows goes on to show after another step: the call that was about to raise the peak does so
before it is gone. -/
theorem shown_advance {g : Gauge} {before after : List Call} {t : Call} {n : Nat}
    (shown : Shown x n ⟨g, before ++ t :: after⟩) :
    Shown x n ⟨(t.advance g).2.2, before ++ (t.advance g).2.1.toList ++ after⟩ := by
  obtain hPeak | ⟨block, live, hLive, hThen, hNow⟩ := shown
  · exact .inl (Nat.le_trans hPeak (t.peakBytes_le_advance g))
  · -- If the step is that of the call itself, the bytes show from now on.
    rcases List.mem_append.mp hNow with hBefore | hHere
    · exact .inr ⟨block, live, hLive, hThen, by simp [hBefore]⟩
    · rcases List.mem_cons.mp hHere with rfl | hAfter
      · exact .inl (Nat.le_trans hLive (Nat.le_max_right ..))
      · exact .inr ⟨block, live, hLive, hThen, by simp [hAfter]⟩

theorem shown_start {g g' : Gauge} {calls : List Call} {t : Call} {n : Nat}
    (shown : Shown x n ⟨g, calls⟩) (hLedger : g'.ledger = g.ledger) :
    Shown x n ⟨g', calls ++ [t]⟩ := by
  obtain hPeak | ⟨block, live, hLive, hThen, hNow⟩ := shown
  · exact .inl (hLedger ▸ hPeak)
  · exact .inr ⟨block, live, hLive, hThen, List.mem_append_left _ hNow⟩

theorem shown_run {n : Nat} {y : Crowd Gauge Call} (shown : Shown x n y)
    (moves : List (Move Request)) : Shown x n (users.run y moves).2 := by
  apply Rules.run_keeps (P := fun z _ => Shown x n z)
  case hNone => exact shown
  case hStart =>
    intro g g' calls log request t hShown hStart
    exact shown_start hShown (ledger_start hStart)
  case hAdvance =>
    intro g g' before t after act rest log hShown hAdvance
    have hNext := shown_advance hShown
    rwa [Option.some.inj hAdvance] at hNext

/-- What has shown since an earlier moment shows at the present one. -/
theorem Shown.now {n m : Nat} {y : Crowd Gauge Call} (shown : Shown x n y) (hLe : m ≤ n) :
    Shown y m y := by
  obtain hPeak | ⟨block, live, hLive, -, hNow⟩ := shown
  · exact .inl (Nat.le_trans hLe hPeak)
  · exact .inr ⟨block, live, Nat.le_trans hLe hLive, hNow, hNow⟩

/-- At any instant the bytes show in the peak, or a call is about to raise it. -/
theorem shown_now (inner : Resource) (moves : List (Move Request)) :
    let y := (users.run (opening inner) moves).2
    Shown y y.shared.ledger.liveBytes y := by
  apply Rules.run_keeps (P := fun y _ => Shown y y.shared.ledger.liveBytes y)
  case hNone => exact .inl (Nat.le_refl 0)
  case hStart =>
    intro g g' calls log request t hShown hStart
    have hLedger := ledger_start hStart
    exact (shown_start hShown hLedger).now (hLedger ▸ Nat.le_refl _)
  case hAdvance =>
    intro g g' before t after act rest log hShown hAdvance
    have hNext := shown_advance hShown
    have hBytes := t.liveBytes_advance g
    rw [Option.some.inj hAdvance] at hNext hBytes
    obtain hLess | ⟨block, hRaised⟩ := hBytes
    · exact hNext.now hLess
    · -- The call that has just added its bytes knows how many are out now.
      obtain rfl : rest = some (.peaking block g'.ledger.liveBytes) := hRaised
      have hHere : Call.peaking block g'.ledger.liveBytes ∈
          before ++ (some (Call.peaking block g'.ledger.liveBytes)).toList ++ after := by simp
      exact .inr ⟨block, _, Nat.le_refl _, hHere, hHere⟩

/-- What a snapshot says that was loaded at four instants, if so many deallocations were counted
between the first load and the second. -/
structure Reads (x₁ x₂ x₃ x₄ : Crowd Gauge Call) (gone : Nat) : Prop where
  /-- Each counter is right at its own instant. -/
  balanced : ∀ y ∈ [x₁, x₂, x₃, x₄], Balanced y
  /-- The live blocks are those of the first load without the deallocations counted since, and these
  can be more. -/
  liveBlocks : (snapshot x₁ x₂ x₃ x₄).liveBlocks? =
    if gone ≤ blocks x₁ then .ok (blocks x₁ - gone) else .error .subtractOverflow
  /-- With the deallocations loaded first nothing underflows. -/
  swapped : (snapshot x₂ x₁ x₃ x₄).liveBlocks? = .ok (blocks x₂ + gone)
  /-- The bytes exceed the peak only for a call that has added its bytes before the third load and
  has still not raised the peak by the fourth. -/
  peakBytes : (snapshot x₁ x₂ x₃ x₄).liveBytes ≤ (snapshot x₁ x₂ x₃ x₄).peakBytes ∨
    ∃ block live, (snapshot x₁ x₂ x₃ x₄).liveBytes ≤ live ∧
      (snapshot x₁ x₂ x₃ x₄).peakBytes < live ∧
      Call.peaking block live ∈ x₃.underway ∧ Call.peaking block live ∈ x₄.underway

/-- Whatever the threads do before each of the loads. -/
theorem snapshot_reads (inner : Resource) (m₁ m₂ m₃ m₄ : List (Move Request)) :
    let x₁ := (users.run (opening inner) m₁).2
    let x₂ := (users.run x₁ m₂).2
    let x₃ := (users.run x₂ m₃).2
    let x₄ := (users.run x₃ m₄).2
    Reads x₁ x₂ x₃ x₄ ((users.run x₁ m₂).1.count .deducted) := by
  intro x₁ x₂ x₃ x₄
  have h₁ : Balanced x₁ := (balanced_run (balanced_opening inner) m₁).1
  obtain ⟨h₂, hGone⟩ : Balanced x₂ ∧ x₂.shared.ledger.deallocations =
    x₁.shared.ledger.deallocations + (users.run x₁ m₂).1.count .deducted := balanced_run h₁ m₂
  have h₃ : Balanced x₃ := (balanced_run h₂ m₃).1
  have h₄ : Balanced x₄ := (balanced_run h₃ m₄).1
  have hFirst := h₁.allocations
  have hSecond := h₂.allocations
  constructor
  case balanced => simpa using ⟨h₁, h₂, h₃, h₄⟩
  case liveBlocks =>
    split
    case isTrue hLe =>
      apply Ledger.liveBlocks?_of_eq
      show x₁.shared.ledger.allocations = x₂.shared.ledger.deallocations + _
      omega
    case isFalse hMore =>
      apply Ledger.liveBlocks?_of_lt
      show x₁.shared.ledger.allocations < x₂.shared.ledger.deallocations
      omega
  case swapped =>
    apply Ledger.liveBlocks?_of_eq
    show x₂.shared.ledger.allocations = x₁.shared.ledger.deallocations + _
    omega
  case peakBytes =>
    have hThird : Shown x₃ x₃.shared.ledger.liveBytes x₃ := by
      have hNow := shown_now inner (m₁ ++ m₂ ++ m₃)
      rw [Rules.run_append, Rules.run_append] at hNow
      exact hNow
    rcases Nat.lt_or_ge x₄.shared.ledger.peakBytes x₃.shared.ledger.liveBytes with hOver | hLe
    · obtain hPeak | ⟨block, live, hLive, hThen, hStill⟩ : Shown x₃ _ x₄ := shown_run hThird m₄
      · exact absurd hPeak (Nat.not_le_of_lt hOver)
      · exact .inr ⟨block, live, hLive, Nat.lt_of_lt_of_le hOver hLive, hThen, hStill⟩
    · exact .inl hLe

/-- A snapshot without contradictions. -/
def Sound (s : Ledger) : Prop := s.deallocations ≤ s.allocations ∧ s.liveBytes ≤ s.peakBytes

instance : DecidablePred Sound := fun _ => instDecidableAnd

/-- Memory that grants everything. -/
def plenty : Resource := .ofPolicy fun _ _ _ => true

/-- A block comes and goes. -/
def passing : List (Move Request) := alone (.allocate ⟨8, 8⟩) ++ alone (.deallocate ⟨8, 8⟩)

/-- A block that comes and goes between the first load and the second. -/
def overlooked : Ledger :=
  let x := opening plenty
  let y := (users.run x passing).2
  snapshot x y y y

/-- A block whose bytes have been added when the loads come, and the peak has not been raised. -/
def overtaken : Ledger :=
  let x := (users.run (opening plenty) (passing.take 4)).2
  snapshot x x x x

/-- A block has been deallocated that was never allocated, and more bytes are out than ever were. -/
theorem torn_snapshots :
    (overlooked = ⟨0, 1, 0, 8⟩ ∧ overlooked.liveBlocks? = .error .subtractOverflow ∧
      ¬ Sound overlooked) ∧
    overtaken = ⟨1, 0, 8, 0⟩ ∧ ¬ Sound overtaken :=
  ⟨⟨rfl, rfl, by decide⟩, rfl, by decide⟩

end Gauge
end TaskMemory

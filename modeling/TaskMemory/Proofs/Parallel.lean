import Mathlib.Data.List.Basic

/-!
Calls under way side by side. Rules say when a call can start and what its next step does to the
state that all calls share. The moves say which call starts or takes a step next, so the lists of
moves are the interleavings, for any number of threads: a thread is one whose next call starts after
its last one has ended.
-/
namespace TaskMemory

/-- An element at a place splits the list there. -/
theorem exists_split {α : Type} {l : List α} {i : Nat} {a : α} (hGet : l[i]? = some a) :
    ∃ before after, l = before ++ a :: after ∧ before.length = i := by
  obtain ⟨hLt, rfl⟩ := List.getElem?_eq_some_iff.mp hGet
  refine ⟨l.take i, l.drop (i + 1), ?_, List.length_take_of_le (Nat.le_of_lt hLt)⟩
  rw [← List.drop_eq_getElem_cons hLt, List.take_append_drop]

/-- What holds of every element after those before it holds in a longer list if it holds of the last
one. -/
theorem forall_split_concat {α : Type} {P : List α → α → Prop} {l : List α} {b : α}
    (hAll : ∀ before a after, l = before ++ a :: after → P before a) (hLast : P l b) :
    ∀ before a after, l ++ [b] = before ++ a :: after → P before a := by
  intro before a after hEq
  rcases List.eq_nil_or_concat after with rfl | ⟨rest, c, rfl⟩
  · obtain ⟨rfl, hAct⟩ := List.append_inj' hEq rfl
    cases hAct
    exact hLast
  · rw [List.concat_eq_append, ← List.cons_append, ← List.append_assoc] at hEq
    exact hAll _ _ _ (List.append_inj' hEq rfl).1

/-- How calls work on a shared state. A call that cannot start, or has to wait for its next step,
is `none`. -/
structure Rules (σ τ β α : Type) where
  /-- Start a call for a request. -/
  start : β → σ → Option (τ × σ)
  /-- The next step of a call: what it does, and what is left of the call unless that is its end. -/
  advance : τ → σ → Option (α × Option τ × σ)

/-- A shared state, and the calls under way. -/
structure Crowd (σ τ : Type) where
  shared : σ
  underway : List τ := []
  deriving DecidableEq

inductive Move (β : Type) where
  | start (request : β)
  /-- The call at this place takes a step. -/
  | advance (place : Nat)

namespace Rules

variable {σ τ β α : Type} (R : Rules σ τ β α)

/-- One step. A move that finds nothing to do changes nothing. -/
def step (x : Crowd σ τ) : Move β → Option α × Crowd σ τ
  | .start request =>
    match R.start request x.shared with
    | none => (none, x)
    | some (t, s) => (none, ⟨s, x.underway ++ [t]⟩)
  | .advance i =>
    match x.underway[i]?.bind (R.advance · x.shared) with
    | none => (none, x)
    | some (act, t, s) =>
      (some act, ⟨s, x.underway.take i ++ t.toList ++ x.underway.drop (i + 1)⟩)

/-- What is done along a list of moves, and where it leads. -/
def run (x : Crowd σ τ) : List (Move β) → List α × Crowd σ τ
  | [] => ([], x)
  | move :: rest =>
    match R.step x move with
    | (act, x) =>
      match run x rest with
      | (log, last) => (act.toList ++ log, last)

variable {R} {x : Crowd σ τ}

/-- A step starts a call, or it is a step of one that is under way, or nothing. -/
theorem step_cases (x : Crowd σ τ) (move : Move β) :
    R.step x move = (none, x) ∨
    (∃ request t s, move = .start request ∧ R.start request x.shared = some (t, s) ∧
      R.step x move = (none, ⟨s, x.underway ++ [t]⟩)) ∨
    ∃ before t after act rest s, x.underway = before ++ t :: after ∧ move = .advance before.length ∧
      R.advance t x.shared = some (act, rest, s) ∧
      R.step x move = (some act, ⟨s, before ++ rest.toList ++ after⟩) := by
  cases move with
  | start request =>
      rcases hStart : R.start request x.shared with _ | ⟨t, s⟩
      · exact .inl (by simp only [step, hStart])
      · exact .inr (.inl ⟨request, t, s, rfl, hStart, by simp only [step, hStart]⟩)
  | advance i =>
      rcases hNext : x.underway[i]?.bind (R.advance · x.shared) with _ | ⟨act, rest, s⟩
      · exact .inl (by simp only [step, hNext])
      · obtain ⟨t, hGet, hAdvance⟩ := Option.bind_eq_some_iff.mp hNext
        obtain ⟨before, after, hCalls, rfl⟩ := exists_split hGet
        refine .inr (.inr ⟨before, t, after, act, rest, s, hCalls, rfl, hAdvance, ?_⟩)
        simp [step, hCalls, hAdvance]

/-- What comes of the step of a call between others. -/
theorem run_advance {before after : List τ} {t : τ} {act : α} {rest : Option τ} {s s' : σ}
    (hAdvance : R.advance t s = some (act, rest, s')) (moves : List (Move β)) :
    R.run ⟨s, before ++ t :: after⟩ (.advance before.length :: moves) =
      (act :: (R.run ⟨s', before ++ rest.toList ++ after⟩ moves).1,
        (R.run ⟨s', before ++ rest.toList ++ after⟩ moves).2) := by
  simp [run, step, hAdvance]

/-- A step of the only call under way. -/
theorem run_single {t : τ} {act : α} {rest : Option τ} {s s' : σ}
    (hAdvance : R.advance t s = some (act, rest, s')) (moves : List (Move β)) :
    R.run ⟨s, [t]⟩ (.advance 0 :: moves) =
      (act :: (R.run ⟨s', rest.toList⟩ moves).1, (R.run ⟨s', rest.toList⟩ moves).2) := by
  simp [run, step, hAdvance]

theorem run_concat (x : Crowd σ τ) (moves : List (Move β)) (move : Move β) :
    (R.run x (moves ++ [move])).2 = (R.step (R.run x moves).2 move).2 := by
  induction moves generalizing x with
  | nil => simp [run]
  | cons first rest ih => simp [run, ih]

theorem run_append (x : Crowd σ τ) (moves more : List (Move β)) :
    R.run x (moves ++ more) =
      ((R.run x moves).1 ++ (R.run (R.run x moves).2 more).1,
        (R.run (R.run x moves).2 more).2) := by
  induction moves generalizing x with
  | nil => simp [run]
  | cons first rest ih => simp [run, ih]

/-- What holds at the start and is kept by every step holds throughout. The property may speak of
what has been done so far. -/
theorem run_keeps {P : Crowd σ τ → List α → Prop} (hNone : P x [])
    (hStart : ∀ {s s' calls log request t}, P ⟨s, calls⟩ log →
      R.start request s = some (t, s') → P ⟨s', calls ++ [t]⟩ log)
    (hAdvance : ∀ {s s' before t after act rest log}, P ⟨s, before ++ t :: after⟩ log →
      R.advance t s = some (act, rest, s') →
        P ⟨s', before ++ rest.toList ++ after⟩ (log ++ [act])) (moves : List (Move β)) :
    P (R.run x moves).2 (R.run x moves).1 := by
  suffices hAll : ∀ (y : Crowd σ τ) (log : List α), P y log →
      P (R.run y moves).2 (log ++ (R.run y moves).1) from hAll x [] hNone
  induction moves with
  | nil =>
      intro y log hLog
      rwa [run, List.append_nil]
  | cons move rest ih =>
      intro y log hLog
      obtain hStep | ⟨request, t, s, -, hCall, hStep⟩ |
        ⟨before, t, after, act, left, s, hCalls, -, hCall, hStep⟩ := step_cases (R := R) y move
      · simpa [run, hStep] using ih y log hLog
      · simpa [run, hStep] using ih _ log (hStart hLog hCall)
      · obtain ⟨s₀, calls⟩ := y
        obtain rfl : calls = before ++ t :: after := hCalls
        simpa [run, hStep] using ih _ _ (hAdvance hLog hCall)

/-- It was so at some moment along the moves. -/
def Once (R : Rules σ τ β α) (x : Crowd σ τ) (moves : List (Move β)) (P : Crowd σ τ → Prop) :
    Prop :=
  ∃ earlier, earlier <+: moves ∧ P (R.run x earlier).2

theorem once_now {P : Crowd σ τ → Prop} {moves : List (Move β)} (h : P (R.run x moves).2) :
    R.Once x moves P :=
  ⟨moves, List.prefix_rfl, h⟩

/-- What was so at some moment stays so, whatever comes next. -/
theorem Once.concat {P : Crowd σ τ → Prop} {moves : List (Move β)} (once : R.Once x moves P)
    (move : Move β) : R.Once x (moves ++ [move]) P := by
  obtain ⟨earlier, hEarlier, h⟩ := once
  exact ⟨earlier, hEarlier.trans (List.prefix_append ..), h⟩

theorem Once.imp {P Q : Crowd σ τ → Prop} {moves : List (Move β)} (once : R.Once x moves P)
    (h : ∀ y, P y → Q y) : R.Once x moves Q := by
  obtain ⟨earlier, hEarlier, hThen⟩ := once
  exact ⟨earlier, hEarlier, h _ hThen⟩

end Rules
end TaskMemory

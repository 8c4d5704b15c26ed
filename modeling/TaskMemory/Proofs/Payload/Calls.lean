import TaskMemory.Payload.Basic
import TaskMemory.Proofs.Parallel

/-!
Threads that invoke one payload, step by step. The swap of the flag is one step, and so is each
thing that the callable does. While it runs the callable may invoke its own payload; such a call
takes the place of the run on its thread and hands it its answer at the end.
-/
namespace TaskMemory.Payload

/-- How far a call has come. -/
inductive Stage where
  /-- The flag is swapped next. -/
  | calling
  /-- The callable runs, and this is left of its work. -/
  | running (rest : Routine)
  /-- The callable has broken off; its fault is reported next. -/
  | failed (fault : Fault)
  /-- The fault has been reported and is discarded next. -/
  | discarding (fault : Fault)
  | answering (outcome : Except Fault Bool)

/-- A run in which the own payload was invoked, and how it goes on with the answer. -/
structure Frame where
  number : Nat
  next : Bool → Routine

/-- A call, its number in the order of the starts, and the runs inside which it was made, from the
inside out. -/
structure Call where
  number : Nat
  stage : Stage
  outer : List Frame := []

/-- What is done with a payload. -/
inductive Act where
  /-- The block is obtained from the resource. -/
  | obtained (block : Layout)
  /-- A call finds the flag clear, sets it and gets the callable. -/
  | claimed (call : Nat)
  /-- A call finds the flag set. -/
  | refused (call : Nat)
  /-- The callable does something, which leaves this environment, and breaks off if that is a
  fault. -/
  | worked (call : Nat) (deed : Environment → Option Fault × Environment) (fault : Option Fault)
    (left : Environment)
  | asked (call : Nat) (spent : Bool)
  /-- The callable invokes its own payload. -/
  | entered (call inner : Nat)
  | finished (call : Nat)
  /-- The fault of the callable is reported. -/
  | reported (call : Nat) (reason : String) (bytes : Nat)
  /-- The fault is let go, which may raise another one. -/
  | discarded (call : Nat) (fault : Fault) (raised : Option Fault)
  | answered (call : Nat) (outcome : Except Fault Bool)
  /-- The callable is dropped unrun. -/
  | dropped (callable : Callable) (unwinding : Bool)
  | returned (block : Layout)

/-- What an act does to the environment. -/
def Act.effect (env : Environment) : Act → Environment
  | .obtained block => env.allocate block
  | .worked _ deed _ _ => (deed env).2
  | .reported _ reason bytes => env.raise (.payloadFailed reason bytes)
  | .discarded _ fault _ => (fault.discard env).2
  | .dropped callable unwinding => (callable.drop unwinding env).2
  | .returned block => env.release block
  | .claimed _ | .refused _ | .asked .. | .entered .. | .finished _ | .answered .. => env

/-- What the calls share. -/
structure Desk where
  payload : Payload
  env : Environment
  calls : Nat := 0

/-- The outcome of a call that has let go of a fault, which may have raised another one. -/
def outcome (raised : Option Fault) : Except Fault Bool := raised.elim (.ok true) .error

namespace Call

/-- What becomes of the thread of a call when the call ends. A fault that leaves the call breaks the
run off in which the call was made. -/
def leave (outcome : Except Fault Bool) : List Frame → Option Call
  | [] => none
  | frame :: outer =>
    match outcome with
    | .ok ran => some ⟨frame.number, .running (frame.next ran), outer⟩
    | .error fault => some ⟨frame.number, .failed fault, outer⟩

/-- One step of a run. -/
def work (number : Nat) (outer : List Frame) (d : Desk) : Routine → Act × Call × Desk
  | .done => (.finished number, ⟨number, .answering (.ok true), outer⟩, d)
  | .act deed next =>
    match deed d.env with
    | (none, env) =>
      (.worked number deed none env, ⟨number, .running (next env), outer⟩, { d with env })
    | (some fault, env) =>
      (.worked number deed (some fault) env, ⟨number, .failed fault, outer⟩, { d with env })
  | .ask next =>
    (.asked number d.payload.spent, ⟨number, .running (next d.payload.spent), outer⟩, d)
  | .invoke next =>
    (.entered number d.calls, ⟨d.calls, .calling, ⟨number, next⟩ :: outer⟩,
      { d with calls := d.calls + 1 })

/-- The next step of a call: what it does, what is left of its thread, and what it leaves. -/
def advance (t : Call) (d : Desk) : Act × Option Call × Desk :=
  match t.stage with
  | .calling =>
    match d.payload.claim with
    | (true, payload) =>
      (.claimed t.number, some { t with stage := .running payload.callable.work },
        { d with payload })
    | (false, payload) =>
      (.refused t.number, some { t with stage := .answering (.ok false) }, { d with payload })
  | .running rest =>
    match work t.number t.outer d rest with
    | (act, t, d) => (act, some t, d)
  | .failed fault =>
    let bytes := d.payload.block.size
    (.reported t.number fault.message bytes, some { t with stage := .discarding fault },
      { d with env := d.env.raise (.payloadFailed fault.message bytes) })
  | .discarding fault =>
    match fault.discard d.env with
    | (raised, env) =>
      (.discarded t.number fault raised,
        some { t with stage := .answering (outcome raised) }, { d with env })
  | .answering outcome => (.answered t.number outcome, leave outcome t.outer, d)

end Call

/-- Anybody may invoke the payload at any time. -/
def callers : Rules Desk Call Unit Act where
  start _ d := some (⟨d.calls, .calling, []⟩, { d with calls := d.calls + 1 })
  advance t d := some (t.advance d)

/-- A new payload that nobody has invoked. -/
def opening (c : Callable) (env : Environment) : Crowd Desk Call :=
  ⟨{ payload := (create c env).1, env := (create c env).2 }, []⟩

/-- Alone, a call gets to another stage, or to its end, with these acts. -/
def Leads (d : Desk) (t : Call) (log : List Act) (d' : Desk) (rest : Option Call) : Prop :=
  ∃ moves, callers.run ⟨d, [t]⟩ moves = (log, ⟨d', rest.toList⟩)

namespace Leads

variable {d d' d'' : Desk} {t t' : Call} {log log' : List Act} {act : Act} {rest : Option Call}

theorem refl (d : Desk) (t : Call) : Leads d t [] d (some t) := ⟨[], rfl⟩

theorem single (hAdvance : t.advance d = (act, rest, d')) : Leads d t [act] d' rest := by
  have hStep : callers.advance t d = some (act, rest, d') := congrArg some hAdvance
  exact ⟨[.advance 0], Rules.run_single hStep []⟩

theorem trans (first : Leads d t log d' (some t')) (later : Leads d' t' log' d'' rest) :
    Leads d t (log ++ log') d'' rest := by
  obtain ⟨moves, hRun⟩ := first
  obtain ⟨more, hMore⟩ := later
  refine ⟨moves ++ more, ?_⟩
  rw [Rules.run_append, hRun]
  simp only [Option.toList_some, hMore]

theorem cons (hAdvance : t.advance d = (act, some t', d')) (later : Leads d' t' log d'' rest) :
    Leads d t (act :: log) d'' rest := (single hAdvance).trans later

end Leads

/-- A spent payload refuses every claim and stays as it is. -/
theorem claim_of_spent {p : Payload} (hSpent : p.spent = true) : p.claim = (false, p) := by
  rcases p with ⟨callable, _⟩
  cases hSpent
  rfl

/-- A call at a payload that is spent is refused. -/
theorem leads_refused {d : Desk} (hSpent : d.payload.spent = true) (number : Nat)
    (outer : List Frame) :
    Leads d ⟨number, .calling, outer⟩ [.refused number, .answered number (.ok false)] d
      (Call.leave (.ok false) outer) := by
  have hRefused : Call.advance ⟨number, .calling, outer⟩ d =
      (.refused number, some ⟨number, .answering (.ok false), outer⟩, d) := by
    simp only [Call.advance, claim_of_spent hSpent]
  exact .cons hRefused (.single rfl)

/-- The stage after a run. -/
def Stage.after : Option Fault → Stage
  | none => .answering (.ok true)
  | some fault => .failed fault

/-- Work is done as `Routine.run` does it; the calls that it makes are refused. -/
theorem leads_run (rest : Routine) {d : Desk} (hSpent : d.payload.spent = true) (number : Nat)
    (outer : List Frame) : ∃ log made, Leads d ⟨number, .running rest, outer⟩ log
      { d with env := (rest.run true d.env).2, calls := d.calls + made }
      (some ⟨number, Stage.after (rest.run true d.env).1, outer⟩) := by
  induction rest generalizing d with
  | done => exact ⟨_, 0, .single rfl⟩
  | act deed next ih =>
      rcases hDeed : deed d.env with ⟨_ | fault, env⟩
      · obtain ⟨log, made, hLater⟩ := ih env (d := { d with env }) hSpent
        have hStep : Call.advance ⟨number, .running (.act deed next), outer⟩ d =
            (.worked number deed none env, some ⟨number, .running (next env), outer⟩,
              { d with env }) := by
          simp only [Call.advance, Call.work, hDeed]
        rw [Routine.run, hDeed]
        exact ⟨_, made, .cons hStep hLater⟩
      · have hStep : Call.advance ⟨number, .running (.act deed next), outer⟩ d =
            (.worked number deed (some fault) env, some ⟨number, .failed fault, outer⟩,
              { d with env }) := by
          simp only [Call.advance, Call.work, hDeed]
        rw [Routine.run, hDeed]
        exact ⟨_, 0, .single hStep⟩
  | ask next ih =>
      obtain ⟨log, made, hLater⟩ := ih true hSpent
      have hStep : Call.advance ⟨number, .running (.ask next), outer⟩ d =
          (.asked number true, some ⟨number, .running (next true), outer⟩, d) := by
        simp only [Call.advance, Call.work, hSpent]
      exact ⟨_, made, .cons hStep hLater⟩
  | invoke next ih =>
      obtain ⟨log, made, hLater⟩ := ih false (d := { d with calls := d.calls + 1 }) hSpent
      have hInner := leads_refused (d := { d with calls := d.calls + 1 }) hSpent d.calls
        (⟨number, next⟩ :: outer)
      rw [Nat.add_assoc] at hLater
      exact ⟨_, 1 + made, .cons rfl (hInner.trans hLater)⟩

/-- A call whose run has broken off reports the fault and lets go of it. -/
theorem leads_failed (d : Desk) (number : Nat) (fault : Fault) :
    let env := d.env.raise (.payloadFailed fault.message d.payload.block.size)
    ∃ log, Leads d ⟨number, .failed fault, []⟩
      (log ++ [.answered number (outcome (fault.discard env).1)])
      { d with env := (fault.discard env).2 } none := by
  intro env
  rcases hDiscard : fault.discard env with ⟨raised, env'⟩
  have hDiscarded : Call.advance ⟨number, .discarding fault, []⟩ { d with env } =
      (.discarded number fault raised, some ⟨number, .answering (outcome raised), []⟩,
        { d with env := env' }) := by
    simp only [Call.advance, hDiscard]
  exact ⟨[.reported number fault.message d.payload.block.size, .discarded number fault raised],
    .cons rfl (.cons hDiscarded (.single rfl))⟩

/-- A call that nobody interrupts answers and leaves what `invoke` does. -/
theorem leads_invoke (d : Desk) (number : Nat) : ∃ log made,
    Leads d ⟨number, .calling, []⟩ (log ++ [.answered number (d.payload.invoke d.env).1])
      { payload := (d.payload.invoke d.env).2.1, env := (d.payload.invoke d.env).2.2,
        calls := d.calls + made } none := by
  rcases d with ⟨⟨c, _ | _⟩, env, n⟩
  · have hClaimed : Call.advance ⟨number, .calling, []⟩ ⟨⟨c, false⟩, env, n⟩ =
        (.claimed number, some ⟨number, .running c.work, []⟩, ⟨⟨c, true⟩, env, n⟩) := rfl
    obtain ⟨log, made, hRun⟩ := leads_run c.work (d := ⟨⟨c, true⟩, env, n⟩) rfl number []
    have hStart := Leads.cons hClaimed hRun
    rcases hWork : c.work.run true env with ⟨_ | fault, env₁⟩
    · have hInvoke : invoke ⟨c, false⟩ env = (.ok true, ⟨c, true⟩, env₁) := by
        simp only [invoke, claim, Callable.run, hWork, Bool.not_false]
      simp only [hWork] at hStart
      rw [hInvoke]
      exact ⟨_, made, hStart.trans (.single rfl)⟩
    · obtain ⟨after, hFailed⟩ := leads_failed ⟨⟨c, true⟩, env₁, n + made⟩ number fault
      have hInvoke : ∀ raised env₂, fault.discard
          (env₁.raise (.payloadFailed fault.message (block ⟨c, true⟩).size)) = (raised, env₂) →
          invoke ⟨c, false⟩ env = (outcome raised, ⟨c, true⟩, env₂) := by
        intro raised env₂ hDiscard
        simp only [invoke, claim, Callable.run, hWork, Bool.not_false, hDiscard]
        cases raised <;> rfl
      simp only [hWork] at hStart
      rw [hInvoke _ _ rfl]
      have hAll := hStart.trans hFailed
      rw [← List.append_assoc] at hAll
      exact ⟨_, made, hAll⟩
  · exact ⟨[.refused number], 0, leads_refused rfl number []⟩

end TaskMemory.Payload

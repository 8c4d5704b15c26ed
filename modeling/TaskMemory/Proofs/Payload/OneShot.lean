import Mathlib.Data.List.Nodup
import TaskMemory.Proofs.Payload.Calls

/-!
A payload runs its callable once. Whoever swaps the flag first has the callable from then on, until
the run comes to an end; all other calls are refused, those that the callable makes itself among
them. If there was no call, the drop of the payload is what the callable comes to.
-/
namespace TaskMemory.Payload

namespace Act

/-- The call that gets the callable. -/
def claims : Act → List Nat
  | .claimed n => [n]
  | _ => []

/-- What consumes the callable: a call that runs it, or the drop of the payload. -/
def consumes : Act → List (Option Nat)
  | .claimed n => [some n]
  | .dropped .. => [none]
  | _ => []

/-- The steps of the run. -/
def steps (act : Act) : List Act :=
  match act with
  | .worked .. | .asked .. | .entered .. | .finished _ => [act]
  | _ => []

/-- The fault in which the run ends, with the call that made it. -/
def breaks : Act → List (Nat × Fault)
  | .worked n _ (some fault) _ => [(n, fault)]
  | _ => []

def reports : Act → List (Nat × String × Nat)
  | .reported n reason bytes => [(n, reason, bytes)]
  | _ => []

def answers : Act → List (Nat × Except Fault Bool)
  | .answered n outcome => [(n, outcome)]
  | _ => []

/-- The call that answers that it ran the callable, with nothing left of the work. -/
def wins : Act → List (Nat × Option Routine)
  | .answered n (.ok true) => [(n, none)]
  | _ => []

/-- The call that the callable makes. -/
def starts : Act → List Nat
  | .entered _ inner => [inner]
  | _ => []

/-- The block that the resource grants or gets back. -/
def blocks : Act → List Layout
  | .obtained block | .returned block => [block]
  | _ => []

/-- Whether letting go of a fault raises no other one. -/
def quiet : Act → Bool
  | .discarded _ _ raised => raised.isNone
  | _ => true

/-- What an act says of its outcome is what comes of it in this environment. -/
def Happens (env : Environment) : Act → Prop
  | .worked _ deed fault left => deed env = (fault, left)
  | .discarded _ fault raised => (fault.discard env).1 = raised
  | .dropped callable unwinding => (callable.drop unwinding env).1 = none
  | _ => True

end Act

/-- The acts happen as they say, one after the other. -/
def Happen : Environment → List Act → Prop
  | _, [] => True
  | env, act :: rest => act.Happens env ∧ Happen (act.effect env) rest

/-- Acts happen one after the other, the later ones where the earlier ones lead. -/
theorem happen_append {env : Environment} {log more : List Act} :
    Happen env (log ++ more) ↔ Happen env log ∧ Happen (log.foldl Act.effect env) more := by
  induction log generalizing env with
  | nil => simp [Happen]
  | cons act log ih => simp [Happen, ih, and_assoc]

/-- A step of the run that call `n` makes: the work before it, the act, and the work that is left,
which is `none` at the end. The callable sees that its payload is spent and does not get another
run. -/
inductive Goes (n : Nat) : Routine → Act → Option Routine → Prop where
  | work (deed : Environment → Option Fault × Environment) (next : Environment → Routine)
      (env : Environment) : Goes n (.act deed next) (.worked n deed none env) (some (next env))
  | fail (deed : Environment → Option Fault × Environment) (next : Environment → Routine)
      (fault : Fault) (env : Environment) :
      Goes n (.act deed next) (.worked n deed (some fault) env) none
  | ask (next : Bool → Routine) : Goes n (.ask next) (.asked n true) (some (next true))
  | enter (next : Bool → Routine) (inner : Nat) :
      Goes n (.invoke next) (.entered n inner) (some (next false))
  | finish : Goes n .done (.finished n) none

/-- The steps of a run from its start, and the work that is left. -/
inductive Course (n : Nat) (work : Routine) : List Act → Option Routine → Prop where
  | start : Course n work [] (some work)
  | next {log : List Act} {r : Routine} {act : Act} {rest : Option Routine}
      (course : Course n work log (some r)) (goes : Goes n r act rest) :
      Course n work (log ++ [act]) rest

/-- The report of a fault in which a run has ended. -/
def notice (bytes : Nat) (ending : Nat × Fault) : Nat × String × Nat :=
  (ending.1, ending.2.message, bytes)

namespace Stage

/-- What is left of the work of a call that has got the callable. -/
def rest : Stage → List (Option Routine)
  | .calling | .answering (.ok false) => []
  | .running rest => [some rest]
  | .failed _ | .discarding _ | .answering _ => [none]

/-- The fault that is to be reported. -/
def owes : Stage → List Fault
  | .failed fault => [fault]
  | _ => []

end Stage

namespace Call

/-- The calls that are under way on a thread. -/
def numbers (t : Call) : List Nat := t.number :: t.outer.map Frame.number

/-- The calls on a thread that have got the callable and have not answered, with the work that is
left. An inner call is refused. -/
def holders (t : Call) : List (Nat × Option Routine) :=
  t.stage.rest.map (t.number, ·) ++ t.outer.map fun frame => (frame.number, some (frame.next false))

/-- The reports that a thread is still to make. -/
def owing (bytes : Nat) (t : Call) : List (Nat × String × Nat) :=
  t.stage.owes.map fun fault => notice bytes (t.number, fault)

end Call

/-- All that a call can do in a step, as long as no fault is raised by letting go of another one. -/
inductive Shift (d : Desk) : Call → Act × Option Call × Desk → Prop where
  | claim {n : Nat} {outer : List Frame} (hFree : d.payload.spent = false) :
      Shift d ⟨n, .calling, outer⟩
        (.claimed n, some ⟨n, .running d.payload.callable.work, outer⟩,
          { d with payload := { d.payload with spent := true } })
  | refuse {n : Nat} {outer : List Frame} (hSpent : d.payload.spent = true) :
      Shift d ⟨n, .calling, outer⟩ (.refused n, some ⟨n, .answering (.ok false), outer⟩, d)
  | finish {n : Nat} {outer : List Frame} :
      Shift d ⟨n, .running .done, outer⟩ (.finished n, some ⟨n, .answering (.ok true), outer⟩, d)
  | work {n : Nat} {outer : List Frame} {deed : Environment → Option Fault × Environment}
      {next : Environment → Routine} {env : Environment} (hDeed : deed d.env = (none, env)) :
      Shift d ⟨n, .running (.act deed next), outer⟩
        (.worked n deed none env, some ⟨n, .running (next env), outer⟩, { d with env })
  | fail {n : Nat} {outer : List Frame} {deed : Environment → Option Fault × Environment}
      {next : Environment → Routine} {fault : Fault} {env : Environment}
      (hDeed : deed d.env = (some fault, env)) :
      Shift d ⟨n, .running (.act deed next), outer⟩
        (.worked n deed (some fault) env, some ⟨n, .failed fault, outer⟩, { d with env })
  | ask {n : Nat} {outer : List Frame} {next : Bool → Routine} :
      Shift d ⟨n, .running (.ask next), outer⟩
        (.asked n d.payload.spent, some ⟨n, .running (next d.payload.spent), outer⟩, d)
  | enter {n : Nat} {outer : List Frame} {next : Bool → Routine} :
      Shift d ⟨n, .running (.invoke next), outer⟩
        (.entered n d.calls, some ⟨d.calls, .calling, ⟨n, next⟩ :: outer⟩,
          { d with calls := d.calls + 1 })
  | report {n : Nat} {outer : List Frame} {fault : Fault} :
      Shift d ⟨n, .failed fault, outer⟩
        (.reported n fault.message d.payload.block.size, some ⟨n, .discarding fault, outer⟩,
          { d with env := d.env.raise (.payloadFailed fault.message d.payload.block.size) })
  | discard {n : Nat} {outer : List Frame} {fault : Fault} {env : Environment}
      (hDiscard : fault.discard d.env = (none, env)) :
      Shift d ⟨n, .discarding fault, outer⟩
        (.discarded n fault none, some ⟨n, .answering (.ok true), outer⟩, { d with env })
  | answer {n : Nat} (ran : Bool) :
      Shift d ⟨n, .answering (.ok ran), []⟩ (.answered n (.ok ran), none, d)
  | resume {n : Nat} {frame : Frame} {outer : List Frame} (ran : Bool) :
      Shift d ⟨n, .answering (.ok ran), frame :: outer⟩
        (.answered n (.ok ran), some ⟨frame.number, .running (frame.next ran), outer⟩, d)

/-- No call is about to end in a fault. -/
def Call.Calm (t : Call) : Prop := ∀ fault, t.stage ≠ .answering (.error fault)

/-- Every quiet step is one of the shifts. -/
theorem Call.shift (t : Call) (d : Desk) (calm : t.Calm) (hQuiet : (t.advance d).1.quiet = true) :
    Shift d t (t.advance d) := by
  obtain ⟨n, stage, outer⟩ := t
  cases stage with
  | calling =>
      cases hSpent : d.payload.spent with
      | false =>
          have hClaim : d.payload.claim = (true, { d.payload with spent := true }) := by
            rw [claim, hSpent]
            rfl
          simp only [advance, hClaim]
          exact .claim hSpent
      | true =>
          simp only [advance, claim_of_spent hSpent]
          exact .refuse hSpent
  | running rest =>
      cases rest with
      | done => exact .finish
      | act deed next =>
          rcases hDeed : deed d.env with ⟨_ | fault, env⟩
          · simp only [advance, work, hDeed]
            exact .work hDeed
          · simp only [advance, work, hDeed]
            exact .fail hDeed
      | ask next => exact .ask
      | invoke next => exact .enter
  | failed fault => exact .report
  | discarding fault =>
      rcases hDiscard : fault.discard d.env with ⟨raised, env⟩
      simp only [advance, hDiscard] at hQuiet ⊢
      obtain rfl : raised = none := Option.isNone_iff_eq_none.mp hQuiet
      exact .discard hDiscard
  | answering outcome =>
      cases outcome with
      | error fault => exact absurd rfl (calm fault)
      | ok ran =>
          cases outer with
          | nil => exact .answer ran
          | cons frame outer => exact .resume ran

namespace Shift

variable {d d' : Desk} {t : Call} {act : Act} {rest : Option Call}

theorem callable_eq (shift : Shift d t (act, rest, d')) :
    d'.payload.callable = d.payload.callable := by
  cases shift <;> rfl

/-- The environment changes by what the act says. -/
theorem env_eq (shift : Shift d t (act, rest, d')) : d'.env = act.effect d.env := by
  cases shift <;> simp [Act.effect, *]

theorem happens (shift : Shift d t (act, rest, d')) : act.Happens d.env := by
  cases shift <;> simp [Act.Happens, *]

/-- Calls are numbered in the order in which they start. -/
theorem range_eq (shift : Shift d t (act, rest, d')) :
    List.range d'.calls = List.range d.calls ++ act.starts := by
  cases shift with
  | enter => exact List.range_succ
  | _ => exact (List.append_nil _).symm

/-- The calls under way answer, or stay. -/
theorem numbers_eq (shift : Shift d t (act, rest, d')) :
    act.answers.map Prod.fst ++ rest.toList.flatMap Call.numbers = act.starts ++ t.numbers := by
  cases shift <;> simp [Act.answers, Act.starts, Call.numbers]

/-- Who has got the callable says so at the end. -/
theorem holders_eq (shift : Shift d t (act, rest, d')) :
    act.wins.map Prod.fst ++ rest.toList.flatMap (fun t => t.holders.map Prod.fst) =
      act.claims ++ t.holders.map Prod.fst := by
  cases shift with
  | answer ran | resume ran =>
      cases ran <;> simp [Act.wins, Act.claims, Call.holders, Stage.rest]
  | _ => simp [Act.wins, Act.claims, Call.holders, Stage.rest]

/-- A step of the run is made by a call that has got the callable. -/
theorem steps_eq (shift : Shift d t (act, rest, d')) :
    act.steps = [] ∨ act.steps = [act] ∧ t.holders ≠ [] := by
  cases shift with
  | finish | work | fail | ask | enter => exact .inr ⟨rfl, List.cons_ne_nil _ _⟩
  | _ => exact .inl rfl

/-- The only call that has got the callable goes on with the work, or it stays where it is. -/
theorem goes (shift : Shift d t (act, rest, d')) (hOne : t.holders.length ≤ 1)
    (hSpent : t.holders ≠ [] → d.payload.spent = true) :
    ∀ e ∈ act.wins ++ rest.toList.flatMap Call.holders,
      (act = .claimed e.1 ∧ e.2 = some d.payload.callable.work) ∨
      (act.steps = [] ∧ e ∈ t.holders) ∨
      ∃ r, act.steps = [act] ∧ (e.1, some r) ∈ t.holders ∧ Goes e.1 r act e.2 := by
  have hAlone : ∀ {n : Nat} {r : Option Routine} {outer : List Frame},
      ((n, r) :: outer.map fun frame => (frame.number, some (frame.next false))).length ≤ 1 →
        outer = [] := by
    intro n r outer hLength
    simpa using hLength
  intro e hMem
  cases shift with
  | @claim n outer =>
      have hSplit : e = (n, some d.payload.callable.work) ∨
          e ∈ Call.holders ⟨n, .calling, outer⟩ := by
        simpa [Act.wins, Call.holders, Stage.rest] using hMem
      rcases hSplit with rfl | hOuter
      · exact .inl ⟨rfl, rfl⟩
      · exact .inr (.inl ⟨rfl, hOuter⟩)
  | refuse | report | discard =>
      exact .inr (.inl ⟨rfl, by simpa [Act.wins, Call.holders, Stage.rest] using hMem⟩)
  | finish =>
      obtain rfl := hAlone hOne
      obtain rfl : e = (_, none) := by simpa [Act.wins, Call.holders, Stage.rest] using hMem
      exact .inr (.inr ⟨_, rfl, List.mem_cons_self, .finish⟩)
  | work =>
      obtain rfl := hAlone hOne
      obtain rfl : e = (_, some _) := by simpa [Act.wins, Call.holders, Stage.rest] using hMem
      exact .inr (.inr ⟨_, rfl, List.mem_cons_self, .work ..⟩)
  | fail =>
      obtain rfl := hAlone hOne
      obtain rfl : e = (_, none) := by simpa [Act.wins, Call.holders, Stage.rest] using hMem
      exact .inr (.inr ⟨_, rfl, List.mem_cons_self, .fail ..⟩)
  | ask =>
      obtain rfl := hAlone hOne
      obtain rfl : e = (_, some _) := by simpa [Act.wins, Call.holders, Stage.rest] using hMem
      rw [hSpent (List.cons_ne_nil _ _)]
      exact .inr (.inr ⟨_, rfl, List.mem_cons_self, .ask _⟩)
  | enter =>
      obtain rfl := hAlone hOne
      obtain rfl : e = (_, some _) := by simpa [Act.wins, Call.holders, Stage.rest] using hMem
      exact .inr (.inr ⟨_, rfl, List.mem_cons_self, .enter ..⟩)
  | answer ran =>
      cases ran with
      | false => simp [Act.wins] at hMem
      | true => exact .inr (.inl ⟨rfl, by simpa [Act.wins, Call.holders, Stage.rest] using hMem⟩)
  | resume ran =>
      cases ran with
      | false => exact .inr (.inl ⟨rfl, by simpa [Act.wins, Call.holders, Stage.rest] using hMem⟩)
      | true => simp [Call.holders, Stage.rest] at hOne

/-- The fault in which a run ends is reported. -/
theorem reports_eq (shift : Shift d t (act, rest, d')) {bytes : Nat}
    (hBytes : d.payload.block.size = bytes) :
    act.reports ++ rest.toList.flatMap (Call.owing bytes) =
      act.breaks.map (notice bytes) ++ t.owing bytes := by
  cases shift <;> simp [Act.reports, Act.breaks, Call.owing, Stage.owes, notice, hBytes]

/-- The callable is there for the call that finds the flag clear, and for no other one. -/
theorem claims_eq (shift : Shift d t (act, rest, d')) :
    d'.payload.spent.toNat = d.payload.spent.toNat + act.claims.length := by
  cases shift with
  | claim hFree => simp [hFree, Act.claims]
  | _ => simp [Act.claims]

theorem calm (shift : Shift d t (act, rest, d')) : ∀ t' ∈ rest.toList, t'.Calm := by
  cases shift <;> simp [Call.Calm]

/-- The calls leave the block alone, and none of them drops the callable unrun. -/
theorem consumes_eq (shift : Shift d t (act, rest, d')) :
    act.blocks = [] ∧ act.consumes = act.claims.map some := by
  cases shift <;> exact ⟨rfl, rfl⟩

/-- Every answer says whether the callable was run. -/
theorem answers_ok (shift : Shift d t (act, rest, d')) :
    ∀ a ∈ act.answers, ∃ ran, a.2 = .ok ran := by
  cases shift <;> simp [Act.answers]

/-- The swap sets the flag, whatever it was. -/
theorem spent_of_calling (shift : Shift d t (act, rest, d')) (hStage : t.stage = .calling) :
    d'.payload.spent = true := by
  cases shift with
  | claim => rfl
  | refuse hSpent => exact hSpent
  | _ => cases hStage

end Shift

/-- Who has got the callable so far, with what is left of the work. -/
def holding (log : List Act) (calls : List Call) : List (Nat × Option Routine) :=
  log.flatMap Act.wins ++ calls.flatMap Call.holders

/-- The acts so far account for the payload and the calls under way. -/
structure Tracks (c : Callable) (env₀ : Environment) (log : List Act) (d : Desk)
    (calls : List Call) : Prop where
  callable : d.payload.callable = c
  env : d.env = log.foldl Act.effect (create c env₀).2
  happen : Happen (create c env₀).2 log
  numbers : ((log.flatMap Act.answers).map Prod.fst ++ calls.flatMap Call.numbers).Perm
    (List.range d.calls)
  claims : d.payload.spent.toNat = (log.flatMap Act.claims).length
  holders : ((holding log calls).map Prod.fst).Perm (log.flatMap Act.claims)
  /-- Whoever has got the callable has done the work but for what is left of it. -/
  course : ∀ e ∈ holding log calls, Course e.1 c.work (log.flatMap Act.steps) e.2
  unrun : d.payload.spent = false → log.flatMap Act.steps = []
  reports : (log.flatMap Act.reports ++
    calls.flatMap (Call.owing (create c env₀).1.block.size)).Perm
    ((log.flatMap Act.breaks).map (notice (create c env₀).1.block.size))
  consumes : log.flatMap Act.consumes = (log.flatMap Act.claims).map some
  blocks : ∀ act ∈ log, act.blocks = []
  answers : ∀ a ∈ log.flatMap Act.answers, ∃ ran, a.2 = .ok ran
  calm : ∀ t ∈ calls, t.Calm
  untouched : d.payload.spent = false →
    log.flatMap Act.answers = [] ∧ ∀ t ∈ calls, t.stage = .calling

variable {c : Callable} {env₀ : Environment} {log : List Act} {d d' : Desk}
  {calls before after : List Call} {t : Call} {act : Act} {rest : Option Call}

theorem tracks_opening (c : Callable) (env₀ : Environment) :
    Tracks c env₀ [] (opening c env₀).shared [] where
  callable := rfl
  env := rfl
  happen := trivial
  numbers := .refl _
  claims := rfl
  holders := .refl _
  course := nofun
  unrun _ := rfl
  reports := .refl _
  consumes := rfl
  blocks := nofun
  answers := nofun
  calm := nofun
  untouched _ := ⟨rfl, nofun⟩

theorem Tracks.start (tracks : Tracks c env₀ log d calls) :
    Tracks c env₀ log { d with calls := d.calls + 1 } (calls ++ [⟨d.calls, .calling, []⟩]) := by
  have hHolding : holding log (calls ++ [⟨d.calls, .calling, []⟩]) = holding log calls := by
    simp [holding, Call.holders, Stage.rest]
  constructor
  case callable => exact tracks.callable
  case env => exact tracks.env
  case happen => exact tracks.happen
  case numbers =>
    rw [List.flatMap_append, ← List.append_assoc, List.range_succ]
    exact tracks.numbers.append_right [d.calls]
  case claims => exact tracks.claims
  case holders => rw [hHolding]; exact tracks.holders
  case course => rw [hHolding]; exact tracks.course
  case unrun => exact tracks.unrun
  case reports => simpa [Call.owing, Stage.owes] using tracks.reports
  case consumes => exact tracks.consumes
  case blocks => exact tracks.blocks
  case answers => exact tracks.answers
  case calm =>
    intro t hMem
    rcases List.mem_append.mp hMem with hOld | hNew
    · exact tracks.calm t hOld
    · obtain rfl := List.mem_singleton.mp hNew
      nofun
  case untouched =>
    intro hFree
    obtain ⟨hNone, hCalling⟩ := tracks.untouched hFree
    refine ⟨hNone, fun t hMem => ?_⟩
    rcases List.mem_append.mp hMem with hOld | hNew
    · exact hCalling t hOld
    · obtain rfl := List.mem_singleton.mp hNew
      rfl

/-- A step adds to what is read off the acts and the calls under way. -/
theorem perm_advance {β : Type} [DecidableEq β] {f : Act → List β} {g : Call → List β}
    {l more : List β} (hOld : (log.flatMap f ++ (before ++ t :: after).flatMap g).Perm l)
    (hStep : f act ++ rest.toList.flatMap g = more ++ g t) :
    ((log ++ [act]).flatMap f ++ (before ++ rest.toList ++ after).flatMap g).Perm (l ++ more) := by
  rw [List.perm_iff_count]
  intro b
  have hOldCount := hOld.count_eq b
  have hStepCount := congrArg (List.count b) hStep
  simp only [List.flatMap_append, List.flatMap_cons, List.flatMap_nil, List.append_nil,
    List.count_append] at hOldCount hStepCount ⊢
  omega

/-- Those who have got the callable are the calls that said so and the ones still at work. -/
theorem map_holding (log : List Act) (calls : List Call) : (holding log calls).map Prod.fst =
    log.flatMap (fun act => act.wins.map Prod.fst) ++
      calls.flatMap (fun t => t.holders.map Prod.fst) := by
  rw [holding, List.map_append, List.map_flatMap, List.map_flatMap]

/-- At most one call has got the callable, and if one has, the flag is set. -/
theorem Tracks.length_holding (tracks : Tracks c env₀ log d calls) :
    (holding log calls).length = d.payload.spent.toNat := by
  rw [tracks.claims, ← tracks.holders.length_eq, List.length_map]

/-- Nobody else has got the callable if a thread has. -/
theorem Tracks.length_holders (tracks : Tracks c env₀ log d (before ++ t :: after)) :
    (holding log (before ++ after)).length + t.holders.length ≤ 1 := by
  have hLength := tracks.length_holding
  have hFlag := d.payload.spent.toNat_le
  simp only [holding, List.flatMap_append, List.flatMap_cons, List.length_append] at hLength ⊢
  omega

/-- A step of the callable goes one step on in its course. -/
theorem Tracks.course_advance (tracks : Tracks c env₀ log d (before ++ t :: after))
    (shift : Shift d t (act, rest, d')) :
    ∀ e ∈ holding (log ++ [act]) (before ++ rest.toList ++ after),
      Course e.1 c.work ((log ++ [act]).flatMap Act.steps) e.2 := by
  intro e hMem
  have hLength := tracks.length_holders
  have hOld : ∀ e, e ∈ holding log (before ++ after) ∨ e ∈ t.holders →
      Course e.1 c.work (log.flatMap Act.steps) e.2 := by
    intro e hMem
    apply tracks.course
    simp only [holding, List.flatMap_append, List.flatMap_cons, List.mem_append] at hMem ⊢
    tauto
  have hSpent : t.holders ≠ [] → d.payload.spent = true := by
    intro hSome
    have hHolds := List.length_pos_iff.mpr hSome
    have hFlag := tracks.length_holding
    cases hSpent : d.payload.spent with
    | true => rfl
    | false =>
        simp only [holding, List.flatMap_append, List.flatMap_cons, List.length_append, hSpent,
          Bool.toNat_false] at hFlag
        omega
  rw [List.flatMap_append, List.flatMap_singleton]
  have hSplit : e ∈ holding log (before ++ after) ∨
      e ∈ act.wins ++ rest.toList.flatMap Call.holders := by
    simp only [holding, List.flatMap_append, List.flatMap_singleton, List.mem_append] at hMem ⊢
    tauto
  rcases hSplit with hOther | hNew
  · obtain hNone | ⟨-, hSome⟩ := shift.steps_eq
    · rw [hNone, List.append_nil]
      exact hOld e (.inl hOther)
    · have hTwo := List.length_pos_of_mem hOther
      have hHolds := List.length_pos_iff.mpr hSome
      omega
  · obtain ⟨rfl, hWork⟩ | ⟨hNone, hSame⟩ | ⟨r, hSteps, hHolds, hGoes⟩ :=
      shift.goes (by omega) hSpent e hNew
    · have hFree : d.payload.spent = false := by
        have hClaims := shift.claims_eq
        have hFlag := d'.payload.spent.toNat_le
        cases hSpent : d.payload.spent with
        | false => rfl
        | true =>
            simp only [hSpent, Bool.toNat_true, Act.claims, List.length_singleton] at hClaims
            omega
      rw [tracks.unrun hFree, hWork, tracks.callable]
      exact .start
    · rw [hNone, List.append_nil]
      exact hOld e (.inr hSame)
    · rw [hSteps]
      exact .next (hOld _ (.inr hHolds)) hGoes

/-- Every step keeps the account of the one run. -/
theorem Tracks.advance (tracks : Tracks c env₀ log d (before ++ t :: after))
    (shift : Shift d t (act, rest, d')) :
    Tracks c env₀ (log ++ [act]) d' (before ++ rest.toList ++ after) := by
  have hBytes : d.payload.block.size = (create c env₀).1.block.size := by
    rw [block, tracks.callable]
    rfl
  have hClaims : (log ++ [act]).flatMap Act.claims = log.flatMap Act.claims ++ act.claims := by
    rw [List.flatMap_append, List.flatMap_singleton]
  -- no step clears the flag, and what is done while it is clear is nothing but a swap
  have hFlag : d'.payload.spent = false → d.payload.spent = false := by
    intro hFree
    have hMore := shift.claims_eq
    rw [hFree, Bool.toNat_false] at hMore
    cases hSpent : d.payload.spent with
    | false => rfl
    | true =>
        rw [hSpent, Bool.toNat_true] at hMore
        omega
  have hSet : d'.payload.spent = true := by
    cases hSpent : d.payload.spent with
    | false => exact shift.spent_of_calling ((tracks.untouched hSpent).2 t (by simp))
    | true => exact eq_true_of_ne_false fun hFree => nomatch hSpent.symm.trans (hFlag hFree)
  constructor
  case callable => exact shift.callable_eq.trans tracks.callable
  case env =>
    rw [List.foldl_append, ← tracks.env, shift.env_eq]
    rfl
  case happen =>
    rw [happen_append, ← tracks.env]
    exact ⟨tracks.happen, shift.happens, trivial⟩
  case numbers =>
    have hOld := tracks.numbers
    rw [List.map_flatMap] at hOld ⊢
    rw [shift.range_eq]
    exact perm_advance hOld shift.numbers_eq
  case claims => rw [hClaims, List.length_append, ← tracks.claims, shift.claims_eq]
  case holders =>
    have hOld := tracks.holders
    rw [map_holding] at hOld ⊢
    rw [hClaims]
    exact perm_advance hOld shift.holders_eq
  case course => exact tracks.course_advance shift
  case unrun => exact fun hFree => nomatch hSet.symm.trans hFree
  case reports =>
    have hOld := tracks.reports
    rw [List.map_flatMap] at hOld ⊢
    simpa only [List.flatMap_append, List.flatMap_singleton] using
      perm_advance hOld (shift.reports_eq hBytes)
  case consumes =>
    rw [hClaims, List.map_append, ← tracks.consumes, ← shift.consumes_eq.2, List.flatMap_append,
      List.flatMap_singleton]
  case blocks =>
    intro other hMem
    rcases List.mem_append.mp hMem with hOld | hNew
    · exact tracks.blocks other hOld
    · obtain rfl := List.mem_singleton.mp hNew
      exact shift.consumes_eq.1
  case answers =>
    intro a hMem
    rw [List.flatMap_append, List.flatMap_singleton, List.mem_append] at hMem
    exact hMem.elim (tracks.answers a) (shift.answers_ok a)
  case calm =>
    intro t' hMem
    simp only [List.mem_append] at hMem
    rcases hMem with (hBefore | hRest) | hAfter
    · exact tracks.calm t' (by simp [hBefore])
    · exact shift.calm t' hRest
    · exact tracks.calm t' (by simp [hAfter])
  case untouched => exact fun hFree => nomatch hSet.symm.trans hFree

/-- Side by side, the calls are accounted for throughout. -/
theorem tracks_run (c : Callable) (env₀ : Environment) (moves : List (Move Unit))
    (hQuiet : ∀ act ∈ (callers.run (opening c env₀) moves).1, act.quiet = true) :
    Tracks c env₀ (callers.run (opening c env₀) moves).1
      (callers.run (opening c env₀) moves).2.shared
      (callers.run (opening c env₀) moves).2.underway := by
  refine Rules.run_keeps (P := fun (x : Crowd Desk Call) log =>
    (∀ act ∈ log, act.quiet = true) → Tracks c env₀ log x.shared x.underway)
    (fun _ => tracks_opening c env₀) ?_ ?_ moves hQuiet
  · intro d d' calls log request t hTracks hStart hQuiet
    cases hStart
    exact (hTracks hQuiet).start
  · intro d d' before t after act rest log hTracks hAdvance hQuiet
    have tracks := hTracks fun act hMem => hQuiet act (List.mem_append_left _ hMem)
    have hStep : t.advance d = (act, rest, d') := Option.some.inj hAdvance
    have shift := t.shift d (tracks.calm t (by simp)) (by
      rw [hStep]
      exact hQuiet act (by simp))
    rw [hStep] at shift
    exact tracks.advance shift

/-- No step clears the flag, and a claim sets it. -/
theorem Call.spent_advance (t : Call) (d : Desk)
    (h : d.payload.spent = true ∨ ∃ n, (t.advance d).1 = .claimed n) :
    (t.advance d).2.2.payload.spent = true := by
  obtain ⟨n, stage, outer⟩ := t
  cases stage with
  | calling =>
      cases hSpent : d.payload.spent <;> simp [advance, claim, hSpent]
  | running rest =>
      cases rest with
      | act deed next =>
          rcases hDeed : deed d.env with ⟨_ | fault, env⟩ <;> simpa [advance, work, hDeed] using h
      | _ => simpa [advance, work] using h
  | _ => simpa [advance] using h

/-- From the first claim on the payload is spent. -/
theorem spent_of_claimed {x : Crowd Desk Call} {moves : List (Move Unit)} {n : Nat}
    (hClaimed : .claimed n ∈ (callers.run x moves).1) :
    (callers.run x moves).2.shared.payload.spent = true := by
  refine Rules.run_keeps (P := fun (y : Crowd Desk Call) log =>
    (∃ n, .claimed n ∈ log) → y.shared.payload.spent = true) ?_ ?_ ?_ moves ⟨n, hClaimed⟩
  · simp
  · intro d d' calls log request t hSpent hStart hClaimed
    cases hStart
    exact hSpent hClaimed
  · intro d d' before t after act rest log hSpent hAdvance hClaimed
    obtain ⟨n, hMem⟩ := hClaimed
    have hStep : t.advance d = (act, rest, d') := Option.some.inj hAdvance
    have hSet := t.spent_advance d
    rw [hStep] at hSet
    apply hSet
    rcases List.mem_append.mp hMem with hOld | hNew
    · exact .inl (hSpent ⟨n, hOld⟩)
    · exact .inr ⟨n, (List.mem_singleton.mp hNew).symm⟩

/-- Whoever answers that it ran the callable is in the answers. -/
theorem mem_wins {log : List Act} {n : Nat} :
    n ∈ (log.flatMap Act.wins).map Prod.fst ↔ (n, .ok true) ∈ log.flatMap Act.answers := by
  rw [List.map_flatMap, List.mem_flatMap, List.mem_flatMap]
  refine exists_congr fun act => and_congr_right fun _ => ?_
  rcases act with _ | _ | _ | _ | _ | _ | _ | _ | _ | ⟨m, _ | _ | _⟩ | _ | _ <;>
    simp [Act.wins, Act.answers]

/-- A call that has said that it ran the callable has nothing left of the work. -/
theorem snd_eq_none_of_mem_wins {e : Nat × Option Routine} (hMem : e ∈ log.flatMap Act.wins) :
    e.2 = none := by
  obtain ⟨act, -, hAct⟩ := List.mem_flatMap.mp hMem
  rcases act with _ | _ | _ | _ | _ | _ | _ | _ | _ | ⟨m, _ | _ | _⟩ | _ | _ <;>
    simp_all [Act.wins]

theorem holding_nil (log : List Act) : holding log [] = log.flatMap Act.wins := List.append_nil _

/-- At most one call gets the callable, and one does if there is any call that ends. -/
theorem Tracks.exists_winner (tracks : Tracks c env₀ log d []) : ∃ winner : Option Nat,
    log.flatMap Act.claims = winner.toList ∧ d.payload.spent = winner.isSome ∧
      (winner = none ↔ d.calls = 0) := by
  have hClaims := tracks.claims
  have hNumbers := tracks.numbers
  have hHolders := tracks.holders
  rw [List.flatMap_nil, List.append_nil] at hNumbers
  rw [holding_nil] at hHolders
  cases hSpent : d.payload.spent with
  | false =>
      have hNone := (tracks.untouched hSpent).1
      rw [hSpent] at hClaims
      rw [hNone] at hNumbers
      have hCalls := hNumbers.length_eq
      simp at hCalls
      exact ⟨none, List.eq_nil_of_length_eq_zero hClaims.symm, rfl, by simp [← hCalls]⟩
  | true =>
      rw [hSpent] at hClaims
      obtain ⟨n, hClaim⟩ := List.length_eq_one_iff.mp hClaims.symm
      refine ⟨some n, hClaim, rfl, by simp, fun hZero => ?_⟩
      have hWin := hHolders.symm.subset (by simp [hClaim] : n ∈ _)
      have hAnswer := hNumbers.subset (List.mem_map_of_mem (mem_wins.mp hWin))
      simp [hZero] at hAnswer

/-- Every call has answered, the winner that it ran the callable, and all others that they did
not. -/
theorem Tracks.answers_perm (tracks : Tracks c env₀ log d []) {winner : Option Nat}
    (hWinner : log.flatMap Act.claims = winner.toList) :
    (log.flatMap Act.answers).Perm
      ((List.range d.calls).map fun n => (n, .ok (decide (winner = some n)))) := by
  have hNumbers := tracks.numbers
  have hHolders := tracks.holders
  rw [List.flatMap_nil, List.append_nil] at hNumbers
  rw [holding_nil] at hHolders
  have hNodup : ((log.flatMap Act.answers).map Prod.fst).Nodup :=
    hNumbers.nodup_iff.mpr List.nodup_range
  have hWins : ∀ n, (n, .ok true) ∈ log.flatMap Act.answers ↔ winner = some n := by
    intro n
    rw [← mem_wins, hHolders.mem_iff, hWinner, Option.mem_toList]
  have hAnswer : ∀ a ∈ log.flatMap Act.answers, (a.1, .ok (decide (winner = some a.1))) = a := by
    rintro ⟨n, outcome⟩ hMem
    obtain ⟨ran, rfl⟩ := tracks.answers _ hMem
    cases ran with
    | true => rw [decide_eq_true ((hWins n).mp hMem)]
    | false =>
        rw [decide_eq_false]
        intro hSome
        have hTwice := List.inj_on_of_nodup_map hNodup hMem ((hWins n).mpr hSome) rfl
        cases hTwice
  have hMap := hNumbers.map fun n => (n, (.ok (decide (winner = some n)) : Except Fault Bool))
  have hSame := (List.map_congr_left hAnswer).trans (List.map_id' _)
  rw [List.map_map] at hMap
  exact hSame ▸ hMap

/-- The winner has done all the work. -/
theorem Tracks.course_winner (tracks : Tracks c env₀ log d []) {n : Nat}
    (hWinner : log.flatMap Act.claims = [n]) : Course n c.work (log.flatMap Act.steps) none := by
  have hHolders := tracks.holders
  have hCourse := tracks.course
  rw [holding_nil] at hHolders hCourse
  rw [hWinner] at hHolders
  have hMem : n ∈ (log.flatMap Act.wins).map Prod.fst := hHolders.symm.subset (by simp)
  obtain ⟨⟨n, rest⟩, hWin, rfl⟩ := List.mem_map.mp hMem
  obtain rfl : rest = none := snd_eq_none_of_mem_wins hWin
  exact hCourse _ hWin

/-- What is done when a payload is dropped: the callable is dropped unless it has been claimed. -/
def ending (p : Payload) (unwinding : Bool) : List Act :=
  (if p.spent then [] else [.dropped p.callable unwinding]) ++ [.returned p.block]

/-- A drop without a fault does what the ending says. -/
theorem drop_eq {p : Payload} {unwinding : Bool} {env : Environment}
    (hDrop : p.spent = false → (p.callable.drop unwinding env).1 = none) :
    p.drop unwinding env = (none, (p.ending unwinding).foldl Act.effect env) ∧
      Happen env (p.ending unwinding) := by
  cases hSpent : p.spent with
  | true => simp [drop, ending, hSpent, Act.effect, Happen, Act.Happens]
  | false =>
      rcases hCallable : p.callable.drop unwinding env with ⟨fault, env'⟩
      have hNone := hDrop hSpent
      rw [hCallable] at hNone
      obtain rfl : fault = none := hNone
      simp [drop, ending, hSpent, hCallable, Act.effect, Happen, Act.Happens]

/-- All that happens to a payload: its block is obtained, it is invoked along some moves, and it is
dropped. -/
def life (c : Callable) (env : Environment) (moves : List (Move Unit)) (unwinding : Bool) :
    List Act :=
  match callers.run (opening c env) moves with
  | (log, x) => .obtained (create c env).1.block :: log ++ x.shared.payload.ending unwinding

/-- The life of a payload with the callable `c`, which is invoked so many times and run by the
`winner`. -/
structure RunsOnce (c : Callable) (env : Environment) (calls : Nat) (winner : Option Nat)
    (life : List Act) : Prop where
  happen : Happen env life
  /-- There is a winner if there is a call. -/
  winner_eq_none : winner = none ↔ calls = 0
  /-- No fault leaves a call. The winner answers that it ran the callable, even if the run ended in
  a fault, and the other calls answer that they did not. -/
  answers : (life.flatMap Act.answers).Perm
    ((List.range calls).map fun n => (n, .ok (decide (winner = some n))))
  /-- The callable is consumed once, by the winner or by the drop of the payload. -/
  consumes : life.flatMap Act.consumes = [winner]
  /-- The winner does all the work of the callable, once. -/
  course : ∀ n, winner = some n → Course n c.work (life.flatMap Act.steps) none
  /-- Without a winner the callable is dropped, and none of its work is done. -/
  unrun : winner = none →
    life.flatMap Act.steps = [] ∧ ∃ unwinding, .dropped c unwinding ∈ life
  /-- A fault in which the run ends is reported once, and nothing else is. -/
  reports : (life.flatMap Act.reports).Perm
    ((life.flatMap Act.breaks).map (notice (create c env).1.block.size))
  /-- The block is given back once, when all else has been done. -/
  block_last : ∃ between, life = .obtained (create c env).1.block :: between ++
    [.returned (create c env).1.block] ∧ ∀ act ∈ between, act.blocks = []

/-- A projection that says nothing of a drop says nothing of the end of a payload. -/
theorem flatMap_ending {β : Type} {f : Act → List β}
    (hDropped : ∀ callable unwinding, f (.dropped callable unwinding) = [])
    (hReturned : ∀ block, f (.returned block) = []) (p : Payload) (unwinding : Bool) :
    (p.ending unwinding).flatMap f = [] := by
  cases hSpent : p.spent <;> simp [ending, hSpent, hDropped, hReturned]

/-- All that happens to a payload happens as the acts say, and it leaves the environment that the
drop leaves. -/
theorem Tracks.drop_eq (tracks : Tracks c env₀ log d []) {unwinding : Bool} {life : List Act}
    (hLife : life = .obtained (create c env₀).1.block :: (log ++ d.payload.ending unwinding))
    (hDrop : d.payload.spent = false → (c.drop unwinding d.env).1 = none) :
    Happen env₀ life ∧ d.payload.drop unwinding d.env = (none, life.foldl Act.effect env₀) := by
  have hNew : Act.effect env₀ (.obtained (create c env₀).1.block) = (create c env₀).2 := rfl
  have hFirst : d.payload.spent = false →
      (d.payload.callable.drop unwinding d.env).1 = none := by
    rwa [tracks.callable]
  obtain ⟨hLast, hHappen⟩ := Payload.drop_eq hFirst
  subst hLife
  constructor
  · refine ⟨trivial, happen_append.mpr ?_⟩
    rw [hNew, ← tracks.env]
    exact ⟨tracks.happen, hHappen⟩
  · rw [List.foldl_cons, List.foldl_append, hNew, ← tracks.env, hLast]

/-- What the account says when no call is left and the payload is dropped. -/
theorem Tracks.runsOnce (tracks : Tracks c env₀ log d []) {unwinding : Bool}
    (hDrop : d.payload.spent = false → (c.drop unwinding d.env).1 = none) : ∃ winner,
    RunsOnce c env₀ d.calls winner
      (.obtained (create c env₀).1.block :: log ++ d.payload.ending unwinding) := by
  obtain ⟨winner, hClaims, hSpent, hCalls⟩ := tracks.exists_winner
  have hBlock : d.payload.block = (create c env₀).1.block := by
    rw [block, tracks.callable]
    rfl
  have hSame : ∀ {β : Type} (f : Act → List β), (∀ block, f (.obtained block) = []) →
      (∀ callable unwinding, f (.dropped callable unwinding) = []) →
      (∀ block, f (.returned block) = []) →
      (.obtained (create c env₀).1.block :: log ++ d.payload.ending unwinding).flatMap f =
        log.flatMap f := by
    intro β f hObtained hDropped hReturned
    rw [List.flatMap_append, List.flatMap_cons, hObtained, List.nil_append,
      flatMap_ending hDropped hReturned, List.append_nil]
  refine ⟨winner, ?_⟩
  constructor
  case happen => exact (tracks.drop_eq rfl hDrop).1
  case winner_eq_none => exact hCalls
  case answers =>
    rw [hSame Act.answers (fun _ => rfl) (fun _ _ => rfl) fun _ => rfl]
    exact tracks.answers_perm hClaims
  case consumes =>
    have hConsumes := tracks.consumes
    rw [hClaims] at hConsumes
    cases winner <;> simp [Act.consumes, ending, hConsumes, hSpent]
  case course =>
    rintro n rfl
    rw [hSame Act.steps (fun _ => rfl) (fun _ _ => rfl) fun _ => rfl]
    exact tracks.course_winner hClaims
  case unrun =>
    rintro rfl
    rw [hSame Act.steps (fun _ => rfl) (fun _ _ => rfl) fun _ => rfl]
    refine ⟨tracks.unrun hSpent, unwinding, ?_⟩
    simp [ending, hSpent, tracks.callable]
  case reports =>
    have hReports := tracks.reports
    rw [List.flatMap_nil, List.append_nil] at hReports
    rwa [hSame Act.reports (fun _ => rfl) (fun _ _ => rfl) fun _ => rfl,
      hSame Act.breaks (fun _ => rfl) (fun _ _ => rfl) fun _ => rfl]
  case block_last =>
    refine ⟨log ++ if d.payload.spent then [] else [.dropped d.payload.callable unwinding], ?_, ?_⟩
    · simp [ending, hBlock]
    · intro act hMem
      rcases List.mem_append.mp hMem with hOld | hLast
      · exact tracks.blocks act hOld
      · cases hFlag : d.payload.spent with
        | true => simp [hFlag] at hLast
        | false =>
            obtain rfl : act = .dropped d.payload.callable unwinding := by simpa [hFlag] using hLast
            rfl

/-- A payload that is invoked by any threads, and perhaps by its own callable, and then dropped runs
its callable once. The drop leaves the environment as all that happened to the payload has made it,
and no later move clears the flag. -/
theorem runs_once (c : Callable) (env : Environment) (moves : List (Move Unit)) (unwinding : Bool)
    (hIdle : (callers.run (opening c env) moves).2.underway = [])
    (hQuiet : ∀ act ∈ (callers.run (opening c env) moves).1, act.quiet = true)
    (hDrop : let d := (callers.run (opening c env) moves).2.shared
      d.payload.spent = false → (c.drop unwinding d.env).1 = none) :
    let d := (callers.run (opening c env) moves).2.shared
    (∃ winner, RunsOnce c env d.calls winner (life c env moves unwinding)) ∧
    d.payload.drop unwinding d.env =
      (none, (life c env moves unwinding).foldl Act.effect env) ∧
    ∀ earlier later n, .claimed n ∈ (callers.run (opening c env) earlier).1 →
      (callers.run (opening c env) (earlier ++ later)).2.shared.payload.spent = true := by
  intro d
  have tracks := tracks_run c env moves hQuiet
  rw [hIdle] at tracks
  refine ⟨tracks.runsOnce hDrop, (tracks.drop_eq rfl hDrop).2, ?_⟩
  intro earlier later n hClaimed
  apply spent_of_claimed (n := n)
  rw [Rules.run_append]
  exact List.mem_append_left _ hClaimed

/-- Two threads invoke a payload whose callable invokes it once more and then breaks off. The second
one runs it; the first one and the callable itself are refused. -/
theorem runs_once_race :
    let c : Callable := { Callable.reenter with
      work := .invoke fun _ => .act (fun env => (some .wordless, env)) fun _ => .done }
    let env : Environment := { resource := .counted (.ofPolicy .unlimited) }
    let moves : List (Move Unit) := [.start (), .start (), .advance 1, .advance 0, .advance 1,
      .advance 1, .advance 1, .advance 0, .advance 0, .advance 0, .advance 0, .advance 0]
    let d := (callers.run (opening c env) moves).2.shared
    d.calls = 3 ∧ ∃ winner, RunsOnce c env d.calls winner (life c env moves false) := by
  intro c env moves d
  have hSpent : d.payload.spent = true := rfl
  have hQuiet : ∀ act ∈ (callers.run (opening c env) moves).1, act.quiet = true :=
    List.all_eq_true.mp rfl
  obtain ⟨hOnce, -⟩ := runs_once c env moves false rfl hQuiet
    fun hFree => nomatch hSpent.symm.trans hFree
  exact ⟨rfl, hOnce⟩

end TaskMemory.Payload

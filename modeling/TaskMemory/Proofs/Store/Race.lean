import TaskMemory.Proofs.Parallel
import TaskMemory.Proofs.Store.FirstWriter

/-!
Threads that share a store. Each section under a lock is one step: the lookup under the shared lock,
and the section under the exclusive lock, which looks again before it constructs. Whatever the order
of the steps, the requests are served as if one after the other, each at its last step.
-/
namespace TaskMemory.Store

variable {κ υ : Type} [Object υ κ]

def Request.key? (request : Request κ υ) : Option UInt64 := request.target?.map Prod.fst

/-- The key and the kind of a request that brings a constructor. -/
def Request.sought? (request : Request κ υ) : Option (UInt64 × κ) :=
  request.init?.bind fun _ => request.target?

/-- How far a call has come. -/
inductive Caller (κ υ : Type) [Object υ κ] where
  | asked (request : Request κ υ)
  /-- There was no entry under the shared lock. -/
  | missed (request : Request κ υ)

/-- What a call does in one step. -/
inductive Act (κ υ : Type) [Object υ κ] where
  | missed (request : Request κ υ)
  | replied (request : Request κ υ) (reply : Reply)

/-- The request and the reply of a call that ends. -/
def Act.served? : Act κ υ → Option (Request κ υ × Reply)
  | .missed _ => none
  | .replied request reply => some (request, reply)

/-- The calls that ended, in the order of their last steps. -/
def served (log : List (Act κ υ)) : List (Request κ υ × Reply) := log.filterMap Act.served?

theorem served_concat (log : List (Act κ υ)) (act : Act κ υ) :
    served (log ++ [act]) = served log ++ act.served?.toList := by
  rw [served, List.filterMap_append]
  cases hAct : act.served? <;> simp [served, hAct]

/-- Whether a call put the object under a key. -/
def constructs (key : UInt64) (call : Request κ υ × Reply) : Bool :=
  call.1.key? = some key && call.2 matches .found _ true

/-- A call constructs under a key if it is for that key and its reply says that the constructor was
called. -/
theorem constructs_iff {key : UInt64} {call : Request κ υ × Reply} :
    constructs key call = true ↔
      ∃ kind i, call.1.target? = some (key, kind) ∧ call.2 = .found i true := by
  obtain ⟨request, reply⟩ := call
  rw [constructs, Bool.and_eq_true, decide_eq_true_iff]
  constructor
  · rintro ⟨hKey, hReply⟩
    obtain ⟨⟨_, kind⟩, hTarget, rfl⟩ := Option.map_eq_some_iff.mp hKey
    match reply, hReply with
    | .found i true, _ => exact ⟨kind, i, hTarget, rfl⟩
  · rintro ⟨kind, i, hTarget, rfl⟩
    exact ⟨congrArg (Option.map Prod.fst) hTarget, rfl⟩

variable [ObjectKind κ] [DecidableEq κ]

namespace Caller

/-- The section that serves a request. -/
def finish (request : Request κ υ) (x : Service κ υ) :
    Act κ υ × Option (Caller κ υ) × Service κ υ :=
  match x.serve request with
  | (reply, x) => (.replied request reply, none, x)

/-- One section under a lock. A request that brings a constructor looks for an entry under the
shared lock first and goes on if there is none; all others are served under the shared lock. -/
def advance (t : Caller κ υ) (x : Service κ υ) : Act κ υ × Option (Caller κ υ) × Service κ υ :=
  match t with
  | .asked request =>
    match request.sought? with
    | none => finish request x
    | some (key, kind) =>
      match x.lookup kind key with
      | some reply => (.replied request reply, none, x)
      | none => (.missed request, some (.missed request), x)
  | .missed request => finish request x

end Caller

/-- Calls start at any time, and no call has to wait: a lock is free between two sections. -/
def callers : Rules (Service κ υ) (Caller κ υ) (Request κ υ) (Act κ υ) where
  start request x := some (.asked request, x)
  advance t x := some (t.advance x)

namespace Service

/-- These requests, one after the other, get these replies and lead there. -/
def Serves (x : Service κ υ) (calls : List (Request κ υ × Reply)) (y : Service κ υ) : Prop :=
  x.run (calls.map Prod.fst) = (calls.map Prod.snd, y)

variable {x y : Service κ υ} {call : Request κ υ × Reply}
  {calls before after : List (Request κ υ × Reply)}

theorem serves_nil (x : Service κ υ) : x.Serves [] x := rfl

/-- The first request comes first, and the others find what it has left. -/
theorem serves_cons_iff : x.Serves (call :: calls) y ↔
    (x.serve call.1).1 = call.2 ∧ (x.serve call.1).2.Serves calls y := by
  simp only [Serves, List.map_cons, run, Prod.ext_iff, List.cons.injEq, and_assoc]

theorem serves_append_iff : x.Serves (before ++ after) y ↔
    ∃ m, x.Serves before m ∧ m.Serves after y := by
  induction before generalizing x with
  | nil =>
      constructor
      · exact fun hAfter => ⟨x, serves_nil x, hAfter⟩
      · rintro ⟨m, hNil, hAfter⟩
        cases hNil
        exact hAfter
  | cons call rest ih =>
      simp only [List.cons_append, serves_cons_iff, ih]
      constructor
      · rintro ⟨hReply, m, hRest, hAfter⟩
        exact ⟨m, ⟨hReply, hRest⟩, hAfter⟩
      · rintro ⟨m, ⟨hReply, hRest⟩, hAfter⟩
        exact ⟨hReply, m, hRest, hAfter⟩

end Service

namespace Service

variable {x : Service κ υ} {kind : κ} {key : UInt64}

/-- The exclusive section says what the shared one does when there is an entry. -/
theorem construct_of_lookup {reply : Reply} (hReply : x.lookup kind key = some reply)
    (init : Except Fault υ) : x.construct kind key init = (reply, x) := by
  rw [lookup, get?] at hReply
  cases hFind : x.store.find? key with
  | none =>
      rw [hFind] at hReply
      cases hReply
  | some e =>
      simp only [hFind] at hReply
      rw [construct, getOrConstruct_held hFind]
      cases hView : e.view kind with
      | error fault =>
          rw [hView] at hReply
          cases hReply
          rfl
      | ok object =>
          rw [hView] at hReply
          cases hReply
          rfl

end Service

namespace Caller

def request : Caller κ υ → Request κ υ
  | .asked request | .missed request => request

/-- A section finds no entry for a request with a constructor, or it serves the request. -/
theorem advance_cases (t : Caller κ υ) (x : Service κ υ) :
    (∃ request, t = .asked request ∧ t.advance x = (.missed request, some (.missed request), x)) ∨
    t.advance x = finish t.request x := by
  cases t with
  | missed request => exact .inr rfl
  | asked request =>
      rw [advance]
      cases hSought : request.sought? with
      | none => exact .inr rfl
      | some target =>
          obtain ⟨init, hInit, hTarget⟩ := Option.bind_eq_some_iff.mp hSought
          cases hLookup : x.lookup target.2 target.1 with
          | none => exact .inl ⟨request, rfl, by simp only [hLookup]⟩
          | some reply =>
              have hServe : x.serve request = (reply, x) := by
                rw [Service.serve_init hTarget hInit, Service.construct_of_lookup hLookup]
              right
              simp only [hLookup, finish, Caller.request, hServe]

end Caller

/-- Side by side, calls are served as if one after the other, each at its last step. -/
theorem serves_run (x : Service κ υ) (moves : List (Move (Request κ υ))) :
    x.Serves (served (callers.run ⟨x, []⟩ moves).1) (callers.run ⟨x, []⟩ moves).2.shared := by
  apply Rules.run_keeps (P := fun (y : Crowd (Service κ υ) (Caller κ υ)) log =>
    x.Serves (served log) y.shared)
  · exact Service.serves_nil x
  · intro s s' calls log request t hServes hStart
    cases hStart
    exact hServes
  · intro s s' before t after act rest log hServes hAdvance
    rw [served_concat]
    have hAct : t.advance s = (act, rest, s') := Option.some.inj hAdvance
    obtain ⟨request, -, hMiss⟩ | hFinish := t.advance_cases s
    · rw [hMiss] at hAct
      cases hAct
      simpa [Act.served?] using hServes
    · rw [hFinish] at hAct
      cases hAct
      exact Service.serves_append_iff.mpr
        ⟨s, hServes, Service.serves_cons_iff.mpr ⟨rfl, Service.serves_nil _⟩⟩

/-- What is true at any moment of calls side by side at a store that was new. -/
structure Agrees (env : Environment) (log : List (Act κ υ))
    (y : Crowd (Service κ υ) (Caller κ υ)) : Prop where
  serial : (⟨{}, env⟩ : Service κ υ).Serves (served log) y.shared
  keys : (y.shared.store.entries.map Entry.key).Nodup
  once : ∀ key, (served log).countP (constructs key) ≤ 1
  /-- The object that a call has got stays, and all later calls for its key get it if they are at
  its kind. No constructor is called for them. -/
  settled : ∀ before after request key kind i called,
    served log = before ++ (request, .found i called) :: after →
    request.target? = some (key, kind) →
      (∃ v, Object.kind v = kind ∧ ∀ later, (y.shared.run later).2.Holds key v i) ∧
      ∀ call ∈ after, ∀ kind', call.1.target? = some (key, kind') →
        call.2 = if kind = kind' then .found i false
          else .broken (.wrongType key (ObjectKind.name kind) (ObjectKind.name kind')) false
  /-- While no call has got an object for a key, whatever constructors have failed, the next one
  that returns constructs it, in a call before its lookup as in one after it. -/
  retry : ∀ key kind request v place,
    (∀ call ∈ served log, call.1.key? = some key → ∀ i called, call.2 ≠ .found i called) →
    request.target? = some (key, kind) → request.init? = some (.ok v) →
      (y.underway[place]? = some (.missed request) →
        (callers.run y [.advance place]).1 =
          [.replied request (.found y.shared.store.len true)]) ∧
      (y.underway[place]? = some (.asked request) →
        (callers.run y [.advance place, .advance place]).1 =
          [.missed request, .replied request (.found y.shared.store.len true)])
  /-- A call under way that is left alone ends within two steps, and is served as a lone call would
  be at that moment. -/
  prompt : ∀ place t, y.underway[place]? = some t →
    ∃ steps ≤ 2,
      served (callers.run y (List.replicate steps (.advance place))).1 =
        [(t.request, (y.shared.serve t.request).1)] ∧
      (callers.run y (List.replicate steps (.advance place))).2 =
        ⟨(y.shared.serve t.request).2, y.underway.eraseIdx place⟩
  /-- The same is true of a call that starts, which it may do at any moment. -/
  opens : ∀ request, ∃ steps ≤ 2,
    served (callers.run y (.start request :: List.replicate steps
      (.advance y.underway.length))).1 = [(request, (y.shared.serve request).1)] ∧
    (callers.run y (.start request :: List.replicate steps (.advance y.underway.length))).2 =
      ⟨(y.shared.serve request).2, y.underway⟩

namespace Registry

variable {r : Registry υ} {request : Request κ υ} {key : UInt64} {kind : κ}

/-- An object that a request gets is the one under its key. -/
theorem find?_answer {i : Nat} {called : Bool} (hFound : (r.answer request).1 = .found i called)
    (hTarget : request.target? = some (key, kind)) :
    ∃ v, Object.kind v = kind ∧ (r.answer request).2.find? key = some (v, i) := by
  have hPresent : ∀ b : υ × Nat, present kind key b = .found i called →
      Object.kind b.1 = kind ∧ b.2 = i := by
    intro b hFound
    rw [present] at hFound
    split at hFound
    · cases hFound
      exact ⟨‹_›, rfl⟩
    · cases hFound
  have hPut : ∀ init : Constructor υ kind, (r.put kind key init).1 = .found i called →
      ∃ v, Object.kind v = kind ∧ (r.put kind key init).2.find? key = some (v, i) := by
    intro init hFound
    rw [put] at hFound ⊢
    cases hFind : r.find? key with
    | some b =>
        rw [hFind] at hFound
        obtain ⟨hKind, rfl⟩ := hPresent b hFound
        exact ⟨b.1, hKind, hFind⟩
    | none =>
        rw [hFind] at hFound
        cases hInit : init.outcome with
        | error fault =>
            rw [hInit] at hFound
            cases hFound
        | ok v =>
            rw [hInit] at hFound
            cases hFound
            exact ⟨v, init.kind_eq v hInit, find?_concat hFind v⟩
  cases request with
  | get =>
      cases hTarget
      rw [answer] at hFound
      cases hFind : r.find? key with
      | none =>
          rw [hFind] at hFound
          cases hFound
      | some b =>
          rw [hFind] at hFound
          obtain ⟨hKind, rfl⟩ := hPresent b hFound
          exact ⟨b.1, hKind, hFind⟩
  | getOrConstruct _ _ init =>
      cases hTarget
      exact hPut init hFound
  | getOrDefault =>
      cases hTarget
      exact hPut (.default kind) hFound
  | contains | len => cases hTarget

/-- A key gets no object from a request that does not get one for it. -/
theorem find?_answer_eq_none (hNone : r.find? key = none)
    (hUnseen : request.key? = some key → ∀ i called, (r.answer request).1 ≠ .found i called) :
    (r.answer request).2.find? key = none := by
  have hPut : ∀ (kind : κ) (k : UInt64) (init : Constructor υ kind),
      (k = key → ∀ i called, (r.put kind k init).1 ≠ .found i called) →
        (r.put kind k init).2.find? key = none := by
    intro kind k init hUnseen
    rw [put] at hUnseen ⊢
    cases hFind : r.find? k with
    | some b => exact hNone
    | none =>
        rw [hFind] at hUnseen
        cases hInit : init.outcome with
        | error fault => exact hNone
        | ok v =>
            rw [hInit] at hUnseen
            have hNe : k ≠ key := fun hEq => hUnseen hEq _ _ rfl
            rw [find?_eq_none] at hNone ⊢
            simpa [hNe.symm] using hNone
  cases request with
  | getOrConstruct kind k init =>
      exact hPut kind k init fun hEq => hUnseen (congrArg some hEq)
  | getOrDefault kind k =>
      exact hPut kind k (.default kind) fun hEq => hUnseen (congrArg some hEq)
  | get | contains | len => exact hNone

end Registry
namespace Service

variable {x y : Service κ υ} {r : Registry υ} {calls before after : List (Request κ υ × Reply)}
  {request : Request κ υ} {key : UInt64} {kind : κ} {i : Nat} {called : Bool}

theorem Mirrors.serves (h : x.Mirrors r) (hServes : x.Serves calls y) :
    y.Mirrors (r.run (calls.map Prod.fst)).2 := by
  have hLast := (h.run (calls.map Prod.fst)).2
  rwa [hServes] at hLast

/-- A call that gets an object under a key puts it there or finds it there. -/
theorem Mirrors.find?_serves (h : x.Mirrors r)
    (hServes : x.Serves (before ++ (request, .found i called) :: after) y)
    (hTarget : request.target? = some (key, kind)) :
    ∃ (v : υ) (z : Service κ υ) (r' : Registry υ), Object.kind v = kind ∧ z.Mirrors r' ∧
      r'.find? key = some (v, i) ∧ z.Serves after y := by
  obtain ⟨m, hBefore, hRest⟩ := serves_append_iff.mp hServes
  obtain ⟨hReply, hAfter⟩ := serves_cons_iff.mp hRest
  obtain ⟨hAnswer, hServed⟩ := (h.serves hBefore).serve request
  obtain ⟨v, hKind, hFind⟩ := Registry.find?_answer (hAnswer.symm.trans hReply) hTarget
  exact ⟨v, _, _, hKind, hServed, hFind, hAfter⟩

/-- Calls for a key that has an object get it, or are broken off at another kind. -/
theorem Mirrors.reply_of_mem (h : x.Mirrors r) {v : υ} (hFind : r.find? key = some (v, i))
    (hServes : x.Serves calls y) {call : Request κ υ × Reply} (hMem : call ∈ calls)
    (hTarget : call.1.target? = some (key, kind)) :
    call.2 = Registry.present kind key (v, i) := by
  obtain ⟨before, after, rfl⟩ := List.append_of_mem hMem
  obtain ⟨m, hBefore, hRest⟩ := serves_append_iff.mp hServes
  obtain ⟨hReply, -⟩ := serves_cons_iff.mp hRest
  rw [← hReply, (h.serves hBefore).serve_held (Registry.find?_run hFind _) hTarget]

/-- A key has no object for as long as no call has got one. -/
theorem Mirrors.find?_run_eq_none (h : x.Mirrors r) (hNone : r.find? key = none)
    (hServes : x.Serves calls y)
    (hUnseen : ∀ call ∈ calls, call.1.key? = some key → ∀ i called, call.2 ≠ .found i called) :
    (r.run (calls.map Prod.fst)).2.find? key = none := by
  induction calls generalizing x r with
  | nil => exact hNone
  | cons call rest ih =>
      obtain ⟨hReply, hRest⟩ := serves_cons_iff.mp hServes
      obtain ⟨hAnswer, hServed⟩ := h.serve call.1
      have hHead := hUnseen call List.mem_cons_self
      rw [← hReply, hAnswer] at hHead
      exact ih hServed (Registry.find?_answer_eq_none hNone hHead) hRest
        fun call hMem => hUnseen call (List.mem_cons_of_mem _ hMem)

end Service

namespace Caller

variable {x : Service κ υ} {t : Caller κ υ} {request : Request κ υ}

/-- The last step of a call. -/
theorem run_finish (hFinish : t.advance x = finish t.request x) (before after : List (Caller κ υ)) :
    callers.run ⟨x, before ++ t :: after⟩ [.advance before.length] =
      ([.replied t.request (x.serve t.request).1], ⟨(x.serve t.request).2, before ++ after⟩) := by
  have hAdvance : callers.advance t x =
      some (.replied t.request (x.serve t.request).1, none, (x.serve t.request).2) :=
    congrArg some hFinish
  rw [Rules.run_advance hAdvance, Rules.run, Option.toList_none, List.append_nil]

/-- A call that finds no entry goes on to the exclusive section, if nobody comes between. -/
theorem run_miss
    (hMiss : (Caller.asked request).advance x = (.missed request, some (.missed request), x))
    (before after : List (Caller κ υ)) :
    callers.run ⟨x, before ++ .asked request :: after⟩
        [.advance before.length, .advance before.length] =
      ([.missed request, .replied request (x.serve request).1],
        ⟨(x.serve request).2, before ++ after⟩) := by
  have hAdvance : callers.advance (.asked request) x =
      some (.missed request, some (.missed request), x) := congrArg some hMiss
  have hLast := run_finish (x := x) (t := .missed request) rfl before after
  rw [Rules.run_advance hAdvance, Option.toList_some, List.append_assoc, List.singleton_append,
    hLast]
  rfl

/-- A call that is left alone is served within two steps as `Service.serve` does. -/
theorem run_left (x : Service κ υ) (t : Caller κ υ) (before after : List (Caller κ υ)) :
    ∃ steps ≤ 2,
      served (callers.run ⟨x, before ++ t :: after⟩
        (List.replicate steps (.advance before.length))).1 =
          [(t.request, (x.serve t.request).1)] ∧
      (callers.run ⟨x, before ++ t :: after⟩
        (List.replicate steps (.advance before.length))).2 =
          ⟨(x.serve t.request).2, before ++ after⟩ := by
  obtain ⟨request, rfl, hMiss⟩ | hFinish := t.advance_cases x
  · have hRun := run_miss hMiss before after
    exact ⟨2, Nat.le_refl 2, congrArg (served ·.1) hRun, congrArg Prod.snd hRun⟩
  · have hRun := run_finish hFinish before after
    exact ⟨1, by decide, congrArg (served ·.1) hRun, congrArg Prod.snd hRun⟩

end Caller

/-- A property that excludes itself further on in a list holds of one element at most. -/
theorem countP_le_one {α : Type} {p : α → Bool} {l : List α}
    (hOnce : ∀ before a after, l = before ++ a :: after → p a = true → ∀ b ∈ after, p b = false) :
    l.countP p ≤ 1 := by
  induction l with
  | nil => exact Nat.zero_le 1
  | cons a rest ih =>
      have hRest := ih fun before b after hEq => hOnce (a :: before) b after (by rw [hEq]; rfl)
      cases hHead : p a with
      | false => simpa [hHead] using hRest
      | true =>
          have hNone : rest.countP p = 0 := by
            rw [List.countP_eq_zero]
            intro b hMem
            simp [hOnce [] a rest rfl hHead b hMem]
          simp [hHead, hNone]

/-- Threads that share a store agree on its objects, whatever the order of their steps. -/
theorem run_agrees (env : Environment) (moves : List (Move (Request κ υ))) :
    Agrees env (callers.run ⟨⟨{}, env⟩, []⟩ moves).1 (callers.run ⟨⟨{}, env⟩, []⟩ moves).2 := by
  have hServes := serves_run (⟨{}, env⟩ : Service κ υ) moves
  have hNew : (⟨{}, env⟩ : Service κ υ).Mirrors [] := Service.mirrors_empty env
  generalize callers.run ⟨⟨{}, env⟩, []⟩ moves = done at hServes ⊢
  obtain ⟨log, y⟩ := done
  have hMirrors := hNew.serves hServes
  have hSettled : ∀ before after request key kind i called,
      served log = before ++ (request, .found i called) :: after →
      request.target? = some (key, kind) →
        (∃ v, Object.kind v = kind ∧ ∀ later, (y.shared.run later).2.Holds key v i) ∧
        ∀ call ∈ after, ∀ kind', call.1.target? = some (key, kind') →
          call.2 = if kind = kind' then .found i false
            else .broken (.wrongType key (ObjectKind.name kind) (ObjectKind.name kind')) false := by
    intro before after request key kind i called hLog hTarget
    rw [hLog] at hServes
    obtain ⟨v, z, r, rfl, hMiddle, hFind, hAfter⟩ := hNew.find?_serves hServes hTarget
    have hLast := (hMiddle.serves hAfter).holds_run (Registry.find?_run hFind _)
    exact ⟨⟨v, rfl, hLast⟩, fun call hMem kind' => hMiddle.reply_of_mem hFind hAfter hMem⟩
  refine ⟨hServes, hMirrors.firstWriterWins.keys, fun key => countP_le_one ?_, hSettled, ?_, ?_, ?_⟩
  · intro before call after hLog hFirst second hMem
    obtain ⟨kind, i, hTarget, hReply⟩ := constructs_iff.mp hFirst
    obtain ⟨request, reply⟩ := call
    obtain rfl : reply = .found i true := hReply
    rw [Bool.eq_false_iff]
    intro hSecond
    obtain ⟨kind', j, hTarget', hReply'⟩ := constructs_iff.mp hSecond
    have hLater := (hSettled _ _ _ _ _ _ _ hLog hTarget).2 second hMem kind' hTarget'
    rw [hReply'] at hLater
    split at hLater <;> cases hLater
  · intro key kind request v place hUnseen hTarget hInit
    have hNone := hNew.find?_run_eq_none rfl hServes hUnseen
    have hFirst := (hMirrors.first hNone hTarget hInit).1
    have hLookup : y.shared.lookup kind key = none := by
      rw [hMirrors.lookup_eq, hNone]
      rfl
    have hSought : request.sought? = some (key, kind) := by
      rw [Request.sought?, hInit, Option.bind_some, hTarget]
    have hMiss : (Caller.asked request).advance y.shared =
        (.missed request, some (.missed request), y.shared) := by
      simp only [Caller.advance, hSought, hLookup]
    obtain ⟨x, calls⟩ := y
    constructor
    · intro hPlace
      obtain ⟨before, after, rfl, rfl⟩ := exists_split hPlace
      have hRun := Caller.run_finish (x := x) (t := .missed request) rfl before after
      exact hFirst ▸ congrArg Prod.fst hRun
    · intro hPlace
      obtain ⟨before, after, rfl, rfl⟩ := exists_split hPlace
      exact hFirst ▸ congrArg Prod.fst (Caller.run_miss hMiss before after)
  · intro place t hPlace
    obtain ⟨x, calls⟩ := y
    obtain ⟨before, after, rfl, rfl⟩ := exists_split hPlace
    have hErase : (before ++ t :: after).eraseIdx before.length = before ++ after := by
      rw [List.eraseIdx_append_of_length_le (Nat.le_refl _), Nat.sub_self, List.eraseIdx_cons_zero]
    rw [hErase]
    exact Caller.run_left x t before after
  · intro request
    have hAlone := Caller.run_left y.shared (.asked request) y.underway []
    rw [List.append_nil] at hAlone
    exact hAlone

end TaskMemory.Store

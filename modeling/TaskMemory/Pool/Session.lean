import TaskMemory.Bulletin
import TaskMemory.Handle.Reference
import TaskMemory.Pool.Host

/-!
A client of a pool, given by a script. Where the pool lets user code run, a script says what the
client does there, so scripts nest. `run` follows a script and reports on every step, the nested
ones included. The client is careful: it uses no handle whose slot holds no value, with the one
exception that it destroys through any handle if the drop of a value does nothing.
-/
namespace TaskMemory.Pool

inductive Action (α : Type) where
  | get (target : Reference)
  /-- Change a value in place. The operand may be one that could not be read, which shows only when
  it is needed. -/
  | edit (target : Reference) (operand : Except String α)
  | take (target : Reference)
  | describe
  /-- So many threads construct so many copies of a value each. The value itself is dropped before
  the threads start. -/
  | constructParallel (threads copies : Nat) (v : α)
  /-- A thread for each of the values destroys it. -/
  | destroyParallel (targets : List Reference)
  /-- A step that could not be read to its end; these targets came before that. -/
  | unreadable (targets : List Reference) (reason : String)

inductive Script (α : Type) where
  | done
  | act (action : Action α) (rest : Script α)
  | construct (v : α) (rest : Script α)
  /-- Construct a value, and follow a script while a block for a new slab is obtained. -/
  | constructGrowing (v : α) (growing rest : Script α)
  /-- Construct a value by code that follows a script and then, perhaps, fails. -/
  | constructWith (v : α) (building : Script α) (failure : Option String) (rest : Script α)
  | destroy (target : Reference) (rest : Script α)
  /-- Destroy a value whose drop follows a script. -/
  | destroyDuring (target : Reference) (dropping rest : Script α)

instance {α : Type} : Inhabited (Script α) := ⟨.done⟩

/-- The answer to a step. The reports on the steps nested in it have type `ρ`. -/
inductive Answer (α ρ : Type) where
  | made (outcome : Except Refusal (Handle × Place))
  /-- The outcome, and the reports on the nested script if it ran. -/
  | madeDuring (outcome : Except Refusal (Handle × Place)) (nested : Option (List ρ))
  | gone (outcome : Except Fault Unit)
  | goneDuring (outcome : Except Fault Unit) (nested : Option (List ρ))
  | value (v : α)
  | description (pool limit : String) (slabCapacity : UInt32)
  /-- The handles, ascending, the number of refusals and their text. -/
  | madeMany (handles : List Handle) (refused : Nat) (refusal : Option String)
  | broken (fault : Fault)
  | notLive
  | unknownReference
  | unreadable (reason : String)

structure Status where
  slabs : Nat
  live : UInt64
  capacity : Nat
  free : Nat
  deriving DecidableEq

/-- The answer to a step, the figures of the pool after it, and a bulletin. `settled` says that the
account does not depend on the order in which threads ran. -/
inductive Report (α : Type) where
  | report (answer : Answer α (Report α)) (status : Status) (bulletin : Bulletin) (settled : Bool)

structure Client where
  /-- The handles of the values constructed, in the order of the constructions. -/
  issued : Array Handle := #[]
  seen : Mark := {}
  settled : Bool := true

inductive Standing where
  | unknown
  | vacant
  /-- The handle can be used: it names a value, or a slab that does not exist. -/
  | usable (h : Handle)

variable {α : Type}

def status (p : Pool α) : Status := ⟨p.slabCount, p.live, p.capacity, p.freeSlots⟩

abbrev Session (α : Type) := Host α Client

namespace Session

def resolve? (w : Session α) : Reference → Option Handle
  | .numbered i => w.state.issued[i]?
  | .raw h => some h

variable [Stored α]

/-- Whether a handle can be used: it names a value, or a slab that does not exist. -/
def usable (w : Session α) (h : Handle) : Bool :=
  !w.pool.hasSlab h || (w.pool.value? (w.pool.place h)).isSome

def standing (w : Session α) (target : Reference) : Standing :=
  match w.resolve? target with
  | none => .unknown
  | some h => if w.usable h then .usable h else .vacant

def conclude (answer : Answer α (Report α)) (w : Session α) : Report α × Session α :=
  (.report answer w.pool.status (w.env.bulletin w.state.seen) w.state.settled,
    { w with state := { w.state with seen := w.env.mark } })

/-- Remember the handle of a construction that succeeded, and say where its slot lies. -/
def register (made : Except Refusal Handle) (w : Session α) :
    Except Refusal (Handle × Place) × Session α :=
  match made with
  | .error refusal => (.error refusal, w)
  | .ok h => (.ok (h, w.pool.place h),
      { w with state := { w.state with issued := w.state.issued.push h } })

/-- Whether every handle can be used, and no two of them name the same value. -/
def allUsable (w : Session α) : List Handle → Bool
  | [] => true
  | h :: rest =>
    w.usable h && !(w.pool.hasSlab h && (rest.map w.pool.place).contains (w.pool.place h)) &&
      w.allUsable rest

/-- What came of many constructions: the handles, the refusals, their text, and the first fault. -/
structure Harvest where
  handles : Array Handle := #[]
  refused : Nat := 0
  refusal : Option String := none
  fault : Option Fault := none

/-- Construct a copy of a value, and enter what came of it. -/
def constructCopy (v : α) (harvest : Harvest) (w : Session α) : Harvest × Session α :=
  match w.insert v with
  | (.ok h, w) => ({ harvest with handles := harvest.handles.push h }, w)
  | (.error (.noSlot e), w) =>
    ({ harvest with refused := harvest.refused + 1, refusal := some e.message }, w)
  | (.error (.fault f), w) => ({ harvest with fault := harvest.fault.or (some f) }, w)

/-- Let threads construct copies of a value, which is dropped before they start; if that fails, no
thread does. They run one after the other here: the handles are the same ones in any order, and
their events are not heard. -/
def constructParallel (n : Nat) (v : α) (w : Session α) : Answer α (Report α) × Session α :=
  match Stored.drop false v w.env with
  | (some fault, _, env) => (.broken fault, { w with env })
  | (none, _, before) =>
    match n.fold (fun _ _ state => constructCopy v state.1 state.2)
        (({}, { w with env := before }) : Harvest × Session α) with
    | (harvest, w) =>
      let handles := harvest.handles.toList.mergeSort fun a b => a.raw ≤ b.raw
      let issued := w.state.issued ++ handles.toArray
      (match harvest.fault with
        | some fault => .broken fault
        | none => .madeMany handles harvest.refused harvest.refusal,
        { w with
          env := Environment.unheard before w.env
          state := { w.state with issued, settled := false } })

/-- Destroy values one after the other; the first fault is the outcome. -/
def removeAll : List Handle → Session α → Except Fault Unit × Session α
  | [], w => (.ok (), w)
  | h :: rest, w =>
    match w.remove h with
    | (.ok (), w) => removeAll rest w
    | (.error fault, w) => (.error fault, (removeAll rest w).2)

/-- Let a thread for each value destroy it. The drops that have not been reported yet are listed in
ascending order. -/
def destroyParallel (targets : List Reference) (w : Session α) :
    Answer α (Report α) × Session α :=
  match targets.mapM w.resolve? with
  | none => (.unknownReference, w)
  | some handles =>
    if w.allUsable handles then
      let before := w.env
      match removeAll handles w with
      | (outcome, w) =>
        let known := w.state.seen.drops
        let new := w.env.drops.extract known w.env.drops.size
        let drops := w.env.drops.extract 0 known ++ (new.toList.mergeSort (· ≤ ·)).toArray
        (.gone outcome, { w with env := { Environment.unheard before w.env with drops } })
    else (.notLive, w)

variable [Editable α]

def withValue (target : Reference) (w : Session α)
    (use : Handle → α → Answer α (Report α) × Session α) : Answer α (Report α) × Session α :=
  match w.standing target with
  | .unknown => (.unknownReference, w)
  | .vacant => (.notLive, w)
  | .usable h =>
    match w.get? h with
    | .error fault => (.broken fault, w)
    | .ok none => (.notLive, w)
    | .ok (some v) => use h v

def act (w : Session α) : Action α → Answer α (Report α) × Session α
  | .get target => withValue target w fun _ v => (.value v, w)
  | .edit target operand => withValue target w fun h v =>
    match operand with
    | .error reason => (.unreadable reason, w)
    | .ok operand =>
      let change (v : α) := Editable.edit v operand
      (.value (change v), (w.edit h change).2)
  | .take target => withValue target w fun h v =>
    match w.take h with
    | (.ok _, w) => (.value v, w)
    | (.error fault, w) => (.broken fault, w)
  | .describe => (.description w.pool.text w.pool.limit.text w.pool.codec.slabCapacity, w)
  | .constructParallel threads copies v => w.constructParallel (threads * copies) v
  | .destroyParallel targets => w.destroyParallel targets
  | .unreadable targets reason =>
    (if targets.all fun target => (w.resolve? target).isSome then .unreadable reason
      else .unknownReference, w)

/-- The handle through which a client destroys, or the answer of one who does not. -/
def toDestroy (w : Session α) (target : Reference) : Except (Answer α (Report α)) Handle :=
  match w.standing target with
  | .usable h => .ok h
  | .unknown => .error .unknownReference
  | .vacant =>
    if Stored.needsDrop α then .error .notLive
    else match w.resolve? target with
      | some h => .ok h
      | none => .error .unknownReference

/-- Follow a script; the reports on its steps, in order. -/
def run : Script α → Session α → List (Report α) × Session α
  | .done, w => ([], w)
  | .act action rest, w =>
    match w.act action with
    | (answer, w) => follow (run rest) (conclude answer w)
  | .construct v rest, w =>
    match w.construct v Host.idle Host.idle none with
    | (done, w) =>
      match register done.made w with
      | (outcome, w) => follow (run rest) (conclude (.made outcome) w)
  | .constructGrowing v growing rest, w =>
    match w.construct v (run growing) Host.idle none with
    | (done, w) =>
      match register done.made w with
      | (outcome, w) => follow (run rest) (conclude (.madeDuring outcome done.growing) w)
  | .constructWith v building failure rest, w =>
    match w.construct v Host.idle (run building) (failure.map Fault.raised) with
    | (done, w) =>
      match register done.made w with
      | (outcome, w) => follow (run rest) (conclude (.madeDuring outcome done.building) w)
  | .destroy target rest, w =>
    match w.toDestroy target with
    | .error answer => follow (run rest) (conclude answer w)
    | .ok h =>
      match w.remove h with
      | (outcome, w) => follow (run rest) (conclude (.gone outcome) w)
  | .destroyDuring target dropping rest, w =>
    match w.toDestroy target with
    | .error answer => follow (run rest) (conclude answer w)
    | .ok h =>
      match w.destroy h (run dropping) with
      | (outcome, nested, w) => follow (run rest) (conclude (.goneDuring outcome nested) w)
where
  /-- A report, and those on the rest. -/
  follow (rest : Session α → List (Report α) × Session α) (first : Report α × Session α) :
      List (Report α) × Session α :=
    match rest first.2 with
    | (reports, w) => (first.1 :: reports, w)

end Session
end TaskMemory.Pool

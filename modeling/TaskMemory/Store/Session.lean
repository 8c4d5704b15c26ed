import TaskMemory.Bulletin
import TaskMemory.Store.Basic
import TaskMemory.Store.Value

/-!
A client of a shared store, which checks on the way that a key always leads to the same object.
-/
namespace TaskMemory.Store

inductive Query where
  | get (kind : Kind) (key : UInt64)
  /-- Ask for the object under a key, to be constructed from a value; a counter is then added to. -/
  | put (v : Value) (key : UInt64) (amount : Option UInt64)
  /-- Ask for the object under a key with a constructor that fails. -/
  | putFailing (kind : Kind) (key : UInt64) (text : String)
  | putDefault (kind : Kind) (key : UInt64)
  /-- So many threads ask for the object under a key, to be constructed from a copy of a value. The
  value itself is dropped before the threads start. -/
  | putParallel (v : Value) (key : UInt64) (threads : Nat)
  | contains (key : UInt64)
  | describe
  | describePretty
  /-- A request that could not be read. -/
  | unreadable (reason : String)

inductive Answer where
  | absent
  /-- The object, how often the client's constructor ran, and whether the object is the one first
  seen under the key. -/
  | found (v : Value) (constructions : Nat) (same : Bool)
  /-- How often the constructor ran, whether all threads saw the same, and the fault if that is
  what they saw. -/
  | foundByAll (constructions : Nat) (same : Bool) (fault : Option Fault)
  | truth (yes : Bool)
  | description (text : String)
  | broken (fault : Fault)
  | unreadable (reason : String)

/-- A store with its environment, and what the client has seen of both. -/
structure Session where
  store : Store Kind Value := {}
  env : Environment
  /-- The object first seen under each key. -/
  firstSeen : List (UInt64 × Nat) := []
  seen : Mark := {}

/-- The answer to a request with the size of the store and a bulletin. -/
structure Report where
  answer : Answer
  len : Nat
  isEmpty : Bool
  bulletin : Bulletin

namespace Session

/-- Take note of the object under a key: whether it is the one first seen there. -/
def observe (w : Session) (key : UInt64) (object : Nat) : Bool × Session :=
  match w.firstSeen.lookup key with
  | some first => (first = object, w)
  | none => (true, { w with firstSeen := (key, object) :: w.firstSeen })

def present (w : Session) (key : UInt64) (object constructions : Nat) : Answer × Session :=
  match w.observe key object with
  | (same, w) =>
    (((w.store.object? object).elim .absent fun v => .found v constructions same), w)

def accept (w : Session) (r : Access Kind Value) : Session :=
  { w with store := r.store, env := r.env }

/-- Ask for an object, to be constructed from a value. A value that was not needed is dropped. -/
def put (w : Session) (v : Value) (key : UInt64) (amount : Option UInt64) : Answer × Session :=
  let r := w.store.getOrConstruct v.kind key (.ok v) w.env
  match r.outcome with
  | .error fault => (.broken fault, { w.accept r with env := (v.drop true r.env).2 })
  | .ok object =>
    let w := w.accept r
    match if r.constructed then (none, w.env) else v.drop false w.env with
    | (some fault, env) => (.broken fault, { w with env })
    | (none, env) =>
      let store := amount.elim w.store fun n => w.store.modify object (Value.add n)
      ({ w with store, env } : Session).present key object (if r.constructed then 1 else 0)

/-- Let threads ask for an object, one after the other, once the value has been dropped without a
fault. Their events are not heard. -/
def putParallel (w : Session) (v : Value) (key : UInt64) (threads : Nat) : Answer × Session :=
  match v.drop false w.env with
  | (some fault, env) => (.broken fault, { w with env })
  | (none, before) =>
    match threads.fold (fun _ _ (state : List (Except Fault Nat) × Nat × Session) =>
        let w := state.2.2
        let r := w.store.getOrConstruct v.kind key (.ok v) w.env
        (r.outcome :: state.1, state.2.1 + (if r.constructed then 1 else 0), w.accept r))
        ([], 0, { w with env := before }) with
    | (outcomes, constructions, w) =>
      let w := { w with env := Environment.unheard before w.env }
      match outcomes with
      | [] => (.foundByAll constructions true none, w)
      | .error fault :: rest =>
        (.foundByAll constructions (rest.all fun o => o matches .error _) (some fault), w)
      | .ok object :: rest =>
        (.foundByAll constructions (rest.all fun o => o.toOption = some object) none,
          (w.observe key object).2)

def serve (w : Session) : Query → Answer × Session
  | .get kind key =>
    match w.store.get? kind key with
    | .error fault => (.broken fault, w)
    | .ok none => (.absent, w)
    | .ok (some object) => w.present key object 0
  | .put v key amount => w.put v key amount
  | .putFailing kind key text =>
    let r := w.store.getOrConstruct kind key (.error (.raised text)) w.env
    match r.outcome with
    | .error fault => (.broken fault, w.accept r)
    | .ok object => (w.accept r).present key object 0
  | .putDefault kind key =>
    let r := w.store.getOrDefault kind key w.env
    match r.outcome with
    | .error fault => (.broken fault, w.accept r)
    | .ok object => (w.accept r).present key object 0
  | .putParallel v key threads => w.putParallel v key threads
  | .contains key => (.truth (w.store.contains key), w)
  | .describe => (.description w.store.text, w)
  | .describePretty => (.description w.store.pretty, w)
  | .unreadable reason => (.unreadable reason, w)

def run (w : Session) : List Query → List Report × Session
  | [] => ([], w)
  | query :: rest =>
    match w.serve query with
    | (answer, w) =>
      let report : Report := {
        answer
        len := w.store.len
        isEmpty := w.store.isEmpty
        bulletin := w.env.bulletin w.seen }
      match run { w with seen := w.env.mark } rest with
      | (reports, last) => (report :: reports, last)

end Session
end TaskMemory.Store

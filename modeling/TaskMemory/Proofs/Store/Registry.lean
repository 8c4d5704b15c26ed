import Mathlib.Data.List.Nodup
import TaskMemory.Store.Basic

/-!
A store against a registry, which is a map where the first object that is put under a key stays
there for good. Courses of requests to a store are answered as the registry answers them, and the
store has the objects of the registry in the order in which they were put there.
-/
namespace TaskMemory

/-- The entries stay in their order when the table moves. -/
theorem Table.items_push {α : Type} (entry : Layout) (t : Table α) (a : α) (env : Environment) :
    (t.push entry a env).1.items = t.items.push a := by
  by_cases hFull : t.items.size = t.capacity
  · simp [push, hFull, grow]
  · simp [push, hFull]

namespace Store

/-- Objects under their keys, in the order in which they were put there. -/
abbrev Registry (υ : Type) := List (UInt64 × υ)

namespace Registry

variable {υ : Type} {r : Registry υ} {key : UInt64} {v : υ} {i : Nat}

/-- The object under a key, with its number in the order of all. -/
def find? (r : Registry υ) (key : UInt64) : Option (υ × Nat) :=
  (r.zipIdx.find? (·.1.1 = key)).map fun b => (b.1.2, b.2)

theorem find?_eq_none : r.find? key = none ↔ key ∉ r.map Prod.fst := by
  rw [find?, Option.map_eq_none_iff, List.find?_eq_none]
  constructor
  · intro hNone hKey
    obtain ⟨b, hMem, rfl⟩ := List.mem_map.mp hKey
    obtain ⟨i, hGet⟩ := List.mem_iff_getElem?.mp hMem
    have hIndexed : (b, i) ∈ r.zipIdx := List.mk_mem_zipIdx_iff_getElem?.mpr hGet
    simpa using hNone _ hIndexed
  · intro hNot b hMem hKey
    have hGet : r[b.2]? = some b.1 := List.mk_mem_zipIdx_iff_getElem?.mp hMem
    apply hNot
    rw [← of_decide_eq_true hKey]
    exact List.mem_map_of_mem (List.mem_of_getElem? hGet)

/-- What is found under a key stands at its index. -/
theorem getElem?_of_find? (hFind : r.find? key = some (v, i)) : r[i]? = some (key, v) := by
  obtain ⟨⟨⟨k, v'⟩, j⟩, hFirst, hEq⟩ := Option.map_eq_some_iff.mp hFind
  obtain ⟨rfl, rfl⟩ := Prod.mk.inj hEq
  have hKey : k = key := by simpa using List.find?_some hFirst
  rw [← hKey]
  exact List.mk_mem_zipIdx_iff_getElem?.mp (List.mem_of_find?_eq_some hFirst)

/-- Where no key comes twice, what stands at an index is found under its key. -/
theorem find?_of_getElem? (hKeys : (r.map Prod.fst).Nodup) (hGet : r[i]? = some (key, v)) :
    r.find? key = some (v, i) := by
  have hIndexed : ((key, v), i) ∈ r.zipIdx := List.mk_mem_zipIdx_iff_getElem?.mpr hGet
  cases hFind : r.find? key with
  | none =>
      have hMem : key ∈ r.map Prod.fst := List.mem_map_of_mem (List.mem_of_getElem? hGet)
      exact absurd hMem (find?_eq_none.mp hFind)
  | some b =>
      have hOther : r[b.2]? = some (key, b.1) := getElem?_of_find? hFind
      have hLt : i < (r.map Prod.fst).length := by
        rw [List.length_map]
        exact (List.getElem?_eq_some_iff.mp hGet).1
      have hSame : i = b.2 := by
        apply (List.getElem?_inj hLt hKeys).mp
        rw [List.getElem?_map, List.getElem?_map, hGet, hOther]
        rfl
      rw [hSame, hOther] at hGet
      cases hGet
      rw [hSame]

/-- What is found stays there when more is put in. -/
theorem find?_append {b : υ × Nat} (hFind : r.find? key = some b) (more : Registry υ) :
    find? (r ++ more) key = some b := by
  obtain ⟨c, hFirst, rfl⟩ := Option.map_eq_some_iff.mp hFind
  rw [find?, List.zipIdx_append, List.find?_append, hFirst]
  rfl

/-- An object that is put under a new key is found there. -/
theorem find?_concat (hFind : r.find? key = none) (v : υ) :
    find? (r ++ [(key, v)]) key = some (v, r.length) := by
  rw [find?, Option.map_eq_none_iff] at hFind
  rw [find?, List.zipIdx_append, List.find?_append, hFind]
  simp

end Registry

variable {κ υ : Type} [Object υ κ]

/-- What a call of a constructor comes to: an object of its kind, or a fault. -/
structure Constructor (υ : Type) {κ : Type} [Object υ κ] (kind : κ) where
  outcome : Except Fault υ
  kind_eq : ∀ v, outcome = .ok v → Object.kind v = kind

def Constructor.default (kind : κ) : Constructor υ kind :=
  ⟨Object.default kind, Object.kind_default kind⟩

inductive Request (κ υ : Type) [Object υ κ] where
  | get (kind : κ) (key : UInt64)
  | getOrConstruct (kind : κ) (key : UInt64) (init : Constructor υ kind)
  | getOrDefault (kind : κ) (key : UInt64)
  | contains (key : UInt64)
  | len

/-- The key and the kind of a request that is for an object. -/
def Request.target? : Request κ υ → Option (UInt64 × κ)
  | .get kind key | .getOrConstruct kind key _ | .getOrDefault kind key => some (key, kind)
  | .contains _ | .len => none

inductive Reply where
  | absent
  /-- Which object it is, and whether the constructor was called for it. -/
  | found (object : Nat) (constructed : Bool)
  /-- The fault, and whether it came from a call of the constructor. -/
  | broken (fault : Fault) (constructed : Bool)
  | truth (yes : Bool)
  | count (n : Nat)
  deriving DecidableEq

/-- The reply to a request that constructs an object if there is none. -/
def Access.reply (a : Access κ υ) : Reply :=
  match a.outcome with
  | .ok object => .found object a.constructed
  | .error fault => .broken fault a.constructed

/-- A store with its environment. -/
structure Service (κ υ : Type) where
  store : Store κ υ := {}
  env : Environment

/-- The store has the objects of the registry, with their entries in the same order. -/
structure Service.Mirrors (x : Service κ υ) (r : Registry υ) : Prop where
  entries : x.store.entries = r.zipIdx.map fun b => ⟨b.1.1, Object.kind b.1.2, b.2⟩
  objects : x.store.objects.toList = r.map Prod.snd
  keys : (r.map Prod.fst).Nodup

namespace Service.Mirrors

variable {x : Service κ υ} {r : Registry υ}

/-- Store and registry find the same under a key. -/
theorem find?_eq (h : x.Mirrors r) (key : UInt64) :
    x.store.find? key = (r.find? key).map fun b => ⟨key, Object.kind b.1, b.2⟩ := by
  have hList : x.store.find? key = x.store.entries.find? (·.key = key) := Array.find?_toList.symm
  rw [hList, h.entries, List.find?_map, Registry.find?, Option.map_map]
  apply Option.map_congr
  intro b hFirst
  have hKey : b.1.1 = key := by simpa using List.find?_some hFirst
  rw [hKey]
  rfl

theorem len_eq (h : x.Mirrors r) : x.store.len = r.length := by
  have hLength : x.store.len = x.store.entries.length := Array.length_toList.symm
  rw [hLength, h.entries, List.length_map, List.length_zipIdx]

theorem contains_eq (h : x.Mirrors r) (key : UInt64) :
    x.store.contains key = (r.find? key).isSome := by
  rw [Store.contains, h.find?_eq, Option.isSome_map]

theorem find?_eq_none (h : x.Mirrors r) {key : UInt64} (hNew : x.store.contains key = false) :
    r.find? key = none := by
  rw [h.contains_eq] at hNew
  exact Option.isNone_iff_eq_none.mp (Option.isSome_eq_false_iff.mp hNew)

theorem object?_eq (h : x.Mirrors r) (i : Nat) : x.store.object? i = (r[i]?).map Prod.snd := by
  rw [Store.object?, ← Array.getElem?_toList, h.objects, List.getElem?_map]

end Service.Mirrors

/-- A new store is the empty registry. -/
theorem Service.mirrors_empty (env : Environment) : (⟨{}, env⟩ : Service κ υ).Mirrors [] :=
  ⟨rfl, rfl, List.nodup_nil⟩

variable [ObjectKind κ]

/-- A new object gets the entry behind all others, with the next number. -/
theorem entries_insert (s : Store κ υ) (key : UInt64) (v : υ) (env : Environment) :
    (s.insert key v env).2.1.entries = s.entries ++ [⟨key, Object.kind v, s.objects.size⟩] := by
  have hItems := Table.items_push tableEntry s.table ⟨key, Object.kind v, s.objects.size⟩
    (env.allocate (ObjectKind.layout (Object.kind v)))
  exact (congrArg Array.toList hItems).trans Array.toList_push

theorem objects_insert (s : Store κ υ) (key : UInt64) (v : υ) (env : Environment) :
    (s.insert key v env).2.1.objects = s.objects.push v :=
  rfl

/-- An object that is inserted under a new key is one more object of the registry. -/
theorem Service.Mirrors.insert {x : Service κ υ} {r : Registry υ} (h : x.Mirrors r) {key : UInt64}
    (hNew : r.find? key = none) (v : υ) :
    (x.store.insert key v x.env).1 = r.length ∧
      Service.Mirrors ⟨(x.store.insert key v x.env).2.1, (x.store.insert key v x.env).2.2⟩
        (r ++ [(key, v)]) := by
  have hNumber : x.store.objects.size = r.length := by
    rw [← Array.length_toList, h.objects, List.length_map]
  refine ⟨hNumber, ?_, ?_, ?_⟩
  · rw [entries_insert, h.entries, hNumber, List.zipIdx_append, List.map_append]
    simp
  · rw [objects_insert, Array.toList_push, h.objects, List.map_append]
    rfl
  · rw [List.map_append]
    show (r.map Prod.fst ++ [key]).Nodup
    rw [← List.concat_eq_append]
    exact (List.nodup_concat ..).mpr ⟨Registry.find?_eq_none.mp hNew, h.keys⟩

variable [DecidableEq κ] {s : Store κ υ} {kind : κ} {key : UInt64} {env : Environment}

/-- Where there is an object no constructor is called. -/
theorem getOrConstruct_held {e : Entry κ} (hFind : s.find? key = some e) (init : Except Fault υ) :
    s.getOrConstruct kind key init env = ⟨e.view kind, false, s, env⟩ := by
  unfold getOrConstruct
  rw [hFind]

/-- A constructor that fails changes nothing. -/
theorem getOrConstruct_failed (hFind : s.find? key = none) (fault : Fault) :
    s.getOrConstruct kind key (.error fault) env = ⟨.error fault, true, s, env⟩ := by
  unfold getOrConstruct
  rw [hFind]

/-- The first constructor that returns puts its object under the key. -/
theorem getOrConstruct_first (hFind : s.find? key = none) (v : υ) :
    s.getOrConstruct kind key (.ok v) env = ⟨.ok (s.insert key v env).1, true,
      (s.insert key v env).2.1, (s.insert key v env).2.2⟩ := by
  unfold getOrConstruct
  rw [hFind]

namespace Service

/-- The reply of the entry under a key, if there is one. -/
def lookup (x : Service κ υ) (kind : κ) (key : UInt64) : Option Reply :=
  match x.store.get? kind key with
  | .error fault => some (.broken fault false)
  | .ok object => object.map (.found · false)

/-- Ask for the object under a key, to be constructed if there is none. -/
def construct (x : Service κ υ) (kind : κ) (key : UInt64) (init : Except Fault υ) :
    Reply × Service κ υ :=
  let a := x.store.getOrConstruct kind key init x.env
  (a.reply, ⟨a.store, a.env⟩)

def serve (x : Service κ υ) : Request κ υ → Reply × Service κ υ
  | .get kind key => ((x.lookup kind key).getD .absent, x)
  | .getOrConstruct kind key init => x.construct kind key init.outcome
  | .getOrDefault kind key =>
    let a := x.store.getOrDefault kind key x.env
    (a.reply, ⟨a.store, a.env⟩)
  | .contains key => (.truth (x.store.contains key), x)
  | .len => (.count x.store.len, x)

/-- The replies to requests one after the other, and where they lead. -/
def run (x : Service κ υ) : List (Request κ υ) → List Reply × Service κ υ
  | [] => ([], x)
  | request :: rest =>
    match x.serve request with
    | (reply, x) =>
      match x.run rest with
      | (replies, last) => (reply :: replies, last)

end Service

namespace Registry

/-- The reply to a request at a kind for an object that is there. -/
def present (kind : κ) (key : UInt64) (b : υ × Nat) : Reply :=
  if Object.kind b.1 = kind then .found b.2 false
  else .broken (.wrongType key (ObjectKind.name (Object.kind b.1)) (ObjectKind.name kind)) false

/-- The first object that a constructor returns for a key is put under it. -/
def put (r : Registry υ) (kind : κ) (key : UInt64) (init : Constructor υ kind) :
    Reply × Registry υ :=
  match r.find? key with
  | some b => (present kind key b, r)
  | none =>
    match init.outcome with
    | .ok v => (.found r.length true, r ++ [(key, v)])
    | .error fault => (.broken fault true, r)

def answer (r : Registry υ) : Request κ υ → Reply × Registry υ
  | .get kind key => ((r.find? key).elim .absent (present kind key), r)
  | .getOrConstruct kind key init => r.put kind key init
  | .getOrDefault kind key => r.put kind key (.default kind)
  | .contains key => (.truth (r.find? key).isSome, r)
  | .len => (.count r.length, r)

def run (r : Registry υ) : List (Request κ υ) → List Reply × Registry υ
  | [] => ([], r)
  | request :: rest =>
    match r.answer request with
    | (reply, r) =>
      match run r rest with
      | (replies, last) => (reply :: replies, last)

end Registry

namespace Service.Mirrors

variable {x : Service κ υ} {r : Registry υ}

theorem lookup_eq (h : x.Mirrors r) (kind : κ) (key : UInt64) :
    x.lookup kind key = (r.find? key).map (Registry.present kind key) := by
  rw [lookup, Store.get?, h.find?_eq]
  cases r.find? key with
  | none => rfl
  | some b =>
      by_cases hKind : Object.kind b.1 = kind
      · simp [Entry.view, Registry.present, hKind, Except.map]
      · simp [Entry.view, Registry.present, hKind, Except.map]

/-- To construct means the same to the store as to the registry. -/
theorem put (h : x.Mirrors r) (kind : κ) (key : UInt64) (init : Constructor υ kind) :
    (x.construct kind key init.outcome).1 = (r.put kind key init).1 ∧
      (x.construct kind key init.outcome).2.Mirrors (r.put kind key init).2 := by
  have hEntry := h.find?_eq key
  rw [construct, Registry.put]
  cases hFind : r.find? key with
  | some b =>
      rw [hFind] at hEntry
      rw [getOrConstruct_held hEntry]
      refine ⟨?_, h⟩
      by_cases hKind : Object.kind b.1 = kind
      · simp [Entry.view, Registry.present, hKind, Access.reply]
      · simp [Entry.view, Registry.present, hKind, Access.reply]
  | none =>
      rw [hFind] at hEntry
      cases init.outcome with
      | error fault =>
          rw [getOrConstruct_failed hEntry]
          exact ⟨rfl, h⟩
      | ok v =>
          obtain ⟨hNumber, hAfter⟩ := h.insert hFind v
          rw [getOrConstruct_first hEntry]
          exact ⟨congrArg (Reply.found · true) hNumber, hAfter⟩

/-- Every request means the same to the store as to the registry. -/
theorem serve (h : x.Mirrors r) (request : Request κ υ) :
    (x.serve request).1 = (r.answer request).1 ∧
      (x.serve request).2.Mirrors (r.answer request).2 := by
  cases request with
  | get kind key =>
      refine ⟨?_, h⟩
      rw [Service.serve, h.lookup_eq, Registry.answer]
      cases r.find? key <;> rfl
  | getOrConstruct kind key init => exact h.put kind key init
  | getOrDefault kind key => exact h.put kind key (.default kind)
  | contains key =>
      refine ⟨?_, h⟩
      rw [Service.serve, h.contains_eq, Registry.answer]
  | len => exact ⟨congrArg Reply.count h.len_eq, h⟩

/-- A course of requests is answered as the registry answers it. -/
theorem run (h : x.Mirrors r) (requests : List (Request κ υ)) :
    (x.run requests).1 = (r.run requests).1 ∧ (x.run requests).2.Mirrors (r.run requests).2 := by
  induction requests generalizing x r with
  | nil => exact ⟨rfl, h⟩
  | cons request rest ih =>
      obtain ⟨hReply, hServed⟩ := h.serve request
      obtain ⟨hReplies, hLast⟩ := ih hServed
      exact ⟨congrArg₂ List.cons hReply hReplies, hLast⟩

end Service.Mirrors
end Store
end TaskMemory

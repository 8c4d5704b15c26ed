import TaskMemory.Proofs.Store.Registry

/-!
What a first writer fixes. After any course of requests, the first constructor that returns an
object for a key decides which object the key has, and of which kind, after all further requests.
A request that is broken off leaves the store and its environment as they are.
-/
namespace TaskMemory.Store

variable {κ υ : Type} [Object υ κ]

/-- What the constructor that a request brings along comes to. -/
def Request.init? : Request κ υ → Option (Except Fault υ)
  | .getOrConstruct _ _ init => some init.outcome
  | .getOrDefault kind _ => some (Object.default kind)
  | .get .. | .contains _ | .len => none

/-- A constructor makes an object of the kind that is asked for. -/
theorem Request.kind_eq {request : Request κ υ} {key : UInt64} {kind : κ} {v : υ}
    (hTarget : request.target? = some (key, kind)) (hInit : request.init? = some (.ok v)) :
    Object.kind v = kind := by
  cases request with
  | getOrConstruct _ _ init =>
      cases hTarget
      exact init.kind_eq v (Option.some.inj hInit)
  | getOrDefault =>
      cases hTarget
      exact Object.kind_default _ v (Option.some.inj hInit)
  | get | contains | len => cases hInit

variable [ObjectKind κ] [DecidableEq κ]

/-- A key has an object: the object is there, and the requests for the key get it if they are at its
kind. No constructor is called for them, and nothing changes. -/
structure Service.Holds (x : Service κ υ) (key : UInt64) (v : υ) (i : Nat) : Prop where
  object : x.store.object? i = some v
  contains : x.store.contains key = true
  same : ∀ request, request.target? = some (key, Object.kind v) →
    x.serve request = (.found i false, x)
  other : ∀ request kind, request.target? = some (key, kind) → kind ≠ Object.kind v →
    x.serve request =
      (.broken (.wrongType key (ObjectKind.name (Object.kind v)) (ObjectKind.name kind)) false, x)

/-- How a store answers its next request, and what stays of that answer for good. -/
structure Service.FirstWriterWins (x : Service κ υ) : Prop where
  keys : (x.store.entries.map Entry.key).Nodup
  absent : ∀ kind key, x.store.contains key = false → x.serve (.get kind key) = (.absent, x)
  /-- The first object that a constructor returns for a key is its object from then on. -/
  first : ∀ request key kind v, x.store.contains key = false →
    request.target? = some (key, kind) → request.init? = some (.ok v) →
      (x.serve request).1 = .found x.store.len true ∧
      (x.serve request).2.store.entries = x.store.entries ++ [⟨key, kind, x.store.len⟩] ∧
      ∀ later, ((x.serve request).2.run later).2.Holds key v x.store.len
  failed : ∀ request key kind fault, x.store.contains key = false →
    request.target? = some (key, kind) → request.init? = some (.error fault) →
      x.serve request = (.broken fault true, x)
  /-- The object of every entry stays, whatever is asked for later. -/
  held : ∀ e ∈ x.store.entries, ∃ v, Object.kind v = e.kind ∧
    ∀ later, (x.run later).2.Holds e.key v e.object
  /-- New entries come behind all others. -/
  order : ∀ later, x.store.entries <+: (x.run later).2.store.entries
  broken : ∀ request fault called, (x.serve request).1 = .broken fault called →
    (x.serve request).2 = x

namespace Registry

variable {r : Registry υ}

/-- Objects are only added behind the others. -/
theorem prefix_answer (r : Registry υ) (request : Request κ υ) : r <+: (r.answer request).2 := by
  have hPut : ∀ (kind : κ) (key : UInt64) (init : Constructor υ kind),
      r <+: (r.put kind key init).2 := by
    intro kind key init
    rw [put]
    cases r.find? key with
    | some b => exact List.prefix_refl r
    | none =>
        cases init.outcome with
        | ok v => exact List.prefix_append r _
        | error fault => exact List.prefix_refl r
  cases request with
  | getOrConstruct kind key init => exact hPut kind key init
  | getOrDefault kind key => exact hPut kind key (.default kind)
  | get | contains | len => exact List.prefix_refl r

theorem prefix_run (r : Registry υ) (requests : List (Request κ υ)) :
    r <+: (r.run requests).2 := by
  induction requests generalizing r with
  | nil => exact List.prefix_refl r
  | cons request rest ih => exact (r.prefix_answer request).trans (ih _)

/-- What is found under a key is found there ever after. -/
theorem find?_run {key : UInt64} {b : υ × Nat} (hFind : r.find? key = some b)
    (requests : List (Request κ υ)) : (r.run requests).2.find? key = some b := by
  obtain ⟨more, hMore⟩ := r.prefix_run requests
  rw [← hMore]
  exact find?_append hFind more

end Registry

/-- A request with a constructor asks for the object under its key, to be constructed by it. -/
theorem Service.serve_init {x : Service κ υ} {request : Request κ υ} {key : UInt64} {kind : κ}
    {init : Except Fault υ} (hTarget : request.target? = some (key, kind))
    (hInit : request.init? = some init) : x.serve request = x.construct kind key init := by
  cases request with
  | getOrConstruct | getOrDefault =>
      cases hTarget
      cases hInit
      rfl
  | get | contains | len => cases hInit

theorem Service.construct_broken {x : Service κ υ} {kind : κ} {key : UInt64}
    {init : Except Fault υ} {fault : Fault} {called : Bool}
    (hBroken : (x.construct kind key init).1 = .broken fault called) :
    (x.construct kind key init).2 = x := by
  rw [construct] at hBroken ⊢
  cases hFind : x.store.find? key with
  | some e => rw [getOrConstruct_held hFind]
  | none =>
      cases init with
      | error fault => rw [getOrConstruct_failed hFind]
      | ok v =>
          rw [getOrConstruct_first hFind] at hBroken
          cases hBroken

/-- A request that breaks off leaves the store and the environment as they are. -/
theorem Service.serve_broken {x : Service κ υ} {request : Request κ υ} {fault : Fault}
    {called : Bool} (hBroken : (x.serve request).1 = .broken fault called) :
    (x.serve request).2 = x := by
  cases request with
  | getOrConstruct | getOrDefault => exact construct_broken hBroken
  | get | contains | len => rfl

namespace Service.Mirrors

variable {x : Service κ υ} {r : Registry υ} {request : Request κ υ} {key : UInt64} {kind : κ}

/-- A request for a key that has an object calls no constructor. -/
theorem serve_held (h : x.Mirrors r) {b : υ × Nat} (hFind : r.find? key = some b)
    (hTarget : request.target? = some (key, kind)) :
    x.serve request = (Registry.present kind key b, x) := by
  have hEntry := h.find?_eq key
  rw [hFind] at hEntry
  have hReply : (x.serve request).1 = Registry.present kind key b := by
    rw [(h.serve request).1]
    cases request with
    | get | getOrConstruct | getOrDefault =>
        cases hTarget
        simp only [Registry.answer, Registry.put, hFind, Option.elim_some]
    | contains | len => cases hTarget
  have hKept : (x.serve request).2 = x := by
    cases request with
    | get => rfl
    | getOrConstruct | getOrDefault =>
        cases hTarget
        exact congrArg (fun a => (⟨a.store, a.env⟩ : Service κ υ)) (getOrConstruct_held hEntry _)
    | contains | len => cases hTarget
  exact Prod.ext hReply hKept

theorem holds (h : x.Mirrors r) {v : υ} {i : Nat} (hFind : r.find? key = some (v, i)) :
    x.Holds key v i where
  object := by rw [h.object?_eq, Registry.getElem?_of_find? hFind]; rfl
  contains := by rw [h.contains_eq, hFind]; rfl
  same request hTarget := by
    rw [h.serve_held hFind hTarget, Registry.present, if_pos rfl]
  other request kind hTarget hNe := by
    rw [h.serve_held hFind hTarget, Registry.present, if_neg hNe.symm]

theorem holds_run (h : x.Mirrors r) {v : υ} {i : Nat} (hFind : r.find? key = some (v, i))
    (later : List (Request κ υ)) : (x.run later).2.Holds key v i :=
  (h.run later).2.holds (Registry.find?_run hFind later)

/-- The first object for a key is put behind all others and has the key from then on. -/
theorem first (h : x.Mirrors r) {v : υ} (hFind : r.find? key = none)
    (hTarget : request.target? = some (key, kind)) (hInit : request.init? = some (.ok v)) :
    (x.serve request).1 = .found x.store.len true ∧
      (x.serve request).2.store.entries = x.store.entries ++ [⟨key, kind, x.store.len⟩] ∧
      ∀ later, ((x.serve request).2.run later).2.Holds key v x.store.len := by
  have hEntry := h.find?_eq key
  rw [hFind] at hEntry
  obtain ⟨hNumber, hAfter⟩ := h.insert hFind v
  have hServe : x.serve request = (.found x.store.len true,
      ⟨(x.store.insert key v x.env).2.1, (x.store.insert key v x.env).2.2⟩) := by
    rw [serve_init hTarget hInit, construct, getOrConstruct_first hEntry, Access.reply, hNumber,
      h.len_eq]
  have hSize : x.store.objects.size = x.store.len := hNumber.trans h.len_eq.symm
  rw [hServe, h.len_eq]
  refine ⟨rfl, ?_, hAfter.holds_run (Registry.find?_concat hFind v)⟩
  rw [entries_insert, hSize, h.len_eq, Request.kind_eq hTarget hInit]

/-- A constructor that fails leaves nothing under the key. -/
theorem failed (h : x.Mirrors r) {fault : Fault} (hFind : r.find? key = none)
    (hTarget : request.target? = some (key, kind)) (hInit : request.init? = some (.error fault)) :
    x.serve request = (.broken fault true, x) := by
  have hEntry := h.find?_eq key
  rw [hFind] at hEntry
  rw [serve_init hTarget hInit, construct, getOrConstruct_failed hEntry]
  rfl

/-- Every entry leads to an object of its kind, now and ever after. -/
theorem held (h : x.Mirrors r) {e : Entry κ} (hMem : e ∈ x.store.entries) :
    ∃ v, Object.kind v = e.kind ∧ ∀ later, (x.run later).2.Holds e.key v e.object := by
  rw [h.entries] at hMem
  obtain ⟨⟨⟨key, v⟩, i⟩, hIndexed, rfl⟩ := List.mem_map.mp hMem
  have hGet : r[i]? = some (key, v) := List.mk_mem_zipIdx_iff_getElem?.mp hIndexed
  exact ⟨v, rfl, h.holds_run (Registry.find?_of_getElem? h.keys hGet)⟩

/-- Entries are only added behind the others. -/
theorem prefix_entries (h : x.Mirrors r) (later : List (Request κ υ)) :
    x.store.entries <+: (x.run later).2.store.entries := by
  obtain ⟨more, hMore⟩ := r.prefix_run later
  rw [h.entries, (h.run later).2.entries, ← hMore, List.zipIdx_append, List.map_append]
  exact List.prefix_append ..

/-- A store that mirrors a registry has all that is promised of it. -/
theorem firstWriterWins (h : x.Mirrors r) : x.FirstWriterWins where
  keys := by
    have hKeys : x.store.entries.map Entry.key = (r.zipIdx.map Prod.fst).map Prod.fst := by
      rw [h.entries, List.map_map, List.map_map]
      rfl
    rw [hKeys, List.zipIdx_map_fst]
    exact h.keys
  absent kind key hNew := by
    rw [Service.serve, h.lookup_eq, h.find?_eq_none hNew]
    rfl
  first _ _ _ _ hNew hTarget hInit := h.first (h.find?_eq_none hNew) hTarget hInit
  failed _ _ _ _ hNew hTarget hInit := h.failed (h.find?_eq_none hNew) hTarget hInit
  held _ hMem := h.held hMem
  order := h.prefix_entries
  broken _ _ _ hBroken := serve_broken hBroken

end Service.Mirrors

/-- After any course of requests to a new store, the store has been the registry all along, and the
first writer of a key decides what the key has from then on. -/
theorem Service.run_firstWriterWins (env : Environment) (requests : List (Request κ υ)) :
    ((⟨{}, env⟩ : Service κ υ).run requests).1 = (Registry.run [] requests).1 ∧
      ((⟨{}, env⟩ : Service κ υ).run requests).2.Mirrors (Registry.run [] requests).2 ∧
      ((⟨{}, env⟩ : Service κ υ).run requests).2.FirstWriterWins := by
  have hNew : (⟨{}, env⟩ : Service κ υ).Mirrors [] := mirrors_empty env
  obtain ⟨hReplies, hMirrors⟩ := hNew.run requests
  exact ⟨hReplies, hMirrors, hMirrors.firstWriterWins⟩

end TaskMemory.Store

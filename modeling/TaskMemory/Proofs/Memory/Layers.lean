import TaskMemory.Memory.Resource

/-!
Layers around a resource. A layer passes on every request and every answer as it is, so all counting
layers keep the same ledger, wherever they stand, and each tracing layer raises one event for every
call. A request is reported on its way back, from the inside out, and a return on its way in.
-/
namespace TaskMemory

inductive Layer where
  | counting
  | tracing
  deriving DecidableEq

namespace Layer

def wrap : Layer → Resource → Resource
  | counting, r => r.counted
  | tracing, r => r.traced

/-- A resource inside new layers, from the outside in. -/
def stack (layers : List Layer) (inner : Resource) : Resource := layers.foldr wrap inner

/-- The number of tracing layers. -/
def voices (layers : List Layer) : Nat := layers.count tracing

/-- A resource inside layers, with this ledger in all the counting ones. -/
def under (l : Ledger) (inner : Resource) : List Layer → Resource
  | [] => inner
  | counting :: layers => .counting l (under l inner layers)
  | tracing :: layers => .tracing (under l inner layers)

variable {l : Ledger} {inner inner' : Resource} {block : Layout} {events : List Event}

/-- New layers start with empty ledgers. -/
theorem stack_eq_under (layers : List Layer) (inner : Resource) :
    stack layers inner = under {} inner layers := by
  induction layers with
  | nil => rfl
  | cons layer layers ih =>
      cases layer with
      | counting => exact congrArg Resource.counted ih
      | tracing => exact congrArg Resource.traced ih

theorem voices_append (outer inside : List Layer) :
    voices (outer ++ inside) = voices outer + voices inside :=
  List.count_append

/-- The answer comes from inside. Every layer enters a block that is granted, and every tracing
layer raises an event after those from inside. -/
theorem allocate_under (layers : List Layer) {granted : Bool}
    (hInner : inner.allocate block = (granted, inner', events)) :
    (under l inner layers).allocate block =
      (granted, under (if granted then l.grant block.size else l) inner' layers,
        events ++ List.replicate (voices layers) (.allocated block)) := by
  induction layers with
  | nil => rw [under, hInner, voices, List.count_nil, List.replicate_zero, List.append_nil]; rfl
  | cons layer layers ih =>
      cases layer with
      | counting =>
          rw [under, Resource.allocate, ih]
          cases granted <;> rfl
      | tracing =>
          -- This layer speaks after all those inside it.
          have hVoices : voices (tracing :: layers) = voices layers + 1 := List.count_cons_self
          rw [under, Resource.allocate, ih, hVoices, List.replicate_succ', ← List.append_assoc]
          rfl

/-- A return is passed on to the inside. All layers enter it, and each tracing layer raises an event
before those from inside. -/
theorem deallocate_under (layers : List Layer)
    (hInner : inner.deallocate block = (inner', events)) :
    (under l inner layers).deallocate block =
      (under (l.giveBack block.size) inner' layers,
        List.replicate (voices layers) (.deallocated block) ++ events) := by
  induction layers with
  | nil => exact hInner
  | cons layer layers ih =>
      cases layer with
      | counting =>
          rw [under, Resource.deallocate, ih]
          rfl
      | tracing =>
          have hVoices : voices (tracing :: layers) = voices layers + 1 := List.count_cons_self
          rw [under, Resource.deallocate, ih, hVoices, List.replicate_succ]
          rfl

/-- Every counting layer has its ledger, and all are the same. -/
theorem ledgers_under (layers : List Layer) :
    (under l inner layers).ledgers =
      List.replicate (layers.count counting) l ++ inner.ledgers := by
  induction layers with
  | nil => rfl
  | cons layer layers ih =>
      cases layer with
      | counting => rw [under, Resource.ledgers, ih, List.count_cons_self]; rfl
      | tracing => rw [under, Resource.ledgers, ih, List.count_cons_of_ne (by decide)]

end Layer
end TaskMemory

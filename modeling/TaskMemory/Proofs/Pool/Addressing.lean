import TaskMemory.Proofs.Handle.RoundTrip
import TaskMemory.Proofs.Pool.Abreast
import TaskMemory.Proofs.Pool.Release

/-!
What a handle addresses. A handle is 32 bits of which only those under the two masks are read, and
whatever they are the offset lies within a slab. So an operation through a handle can fail to find
its slot only if there is no such slab, and that is found out before anything is done. Since slabs
are appended and never moved, a handle means the same slot for as long as the pool lives.
-/
namespace TaskMemory

namespace Codec

variable {c : Codec} {offsetBits slabBits : Nat} {h other : Handle}

end Codec

namespace Pool

variable {α : Type} {p : Pool α} {offsetBits slabBits : Nat} {h other : Handle}

end Pool

namespace Host

variable {α σ : Type} [Stored α] {w : Host α σ} {h other : Handle}

end Host

namespace Pool

variable {α σ : Type} [Stored α]

section Reachable

variable {w : Host α σ} {b : Book α} {claims : List Place}

end Reachable

variable {m m' : Moment α} {es : List (Effect α)} {w w' : Usage α} {v : α}
  {growing building : Usage α → Usage α} {failure : Option Fault} {h : Handle}

/-- The value of a construction that succeeds is in the book. -/
theorem Usage.exists_of_make {done : Construction Unit Unit}
    (hMake : w.make v growing building failure = (done, w')) (hMade : done.made = .ok h) :
    ∃ r ∈ w'.state.book.contents, r.handle = h ∧ r.value = v := by
  rw [make] at hMake
  obtain ⟨rfl, rfl⟩ := Prod.mk.inj hMake
  rw [hMade]
  exact ⟨_, List.mem_append_right _ List.mem_cons_self, rfl, rfl⟩

end Pool
end TaskMemory

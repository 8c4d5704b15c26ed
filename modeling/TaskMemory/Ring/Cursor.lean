/-!
Cursor arithmetic of a ring of `capacity` slots. A cursor counts through two laps, from zero to
twice the capacity, so that a full ring (cursors one lap apart) differs from an empty one (cursors
equal). A slot is found by a comparison and a subtraction.
-/
namespace TaskMemory.Cursor

def advance (capacity cursor : UInt32) : UInt32 :=
  if cursor + 1 = capacity * 2 then 0 else cursor + 1

/-- The number of steps from the consumer's cursor `c` to the producer's cursor `p`. -/
def distance (capacity p c : UInt32) : UInt32 :=
  if c ≤ p then p - c else p + capacity * 2 - c

/-- The number of elements that a pair of cursors stands for. Cursors that were read at different
moments may lie further apart than a lap; they count as a full ring. -/
def occupancy (capacity p c : UInt32) : UInt32 :=
  if capacity < distance capacity p c then capacity else distance capacity p c

def slot (capacity cursor : UInt32) : UInt32 :=
  if capacity ≤ cursor then cursor - capacity else cursor

end TaskMemory.Cursor

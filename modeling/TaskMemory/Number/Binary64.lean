/-!
Binary floating-point numbers of 64 bits, as far as they are not negative. A finite one is held
exactly, as a multiple of the least positive one, so that sums and quotients are computed exactly
and rounded once, to the nearest number, ties to the even one. `bits` is the encoding, `fixed` the
decimal text.
-/
namespace TaskMemory

/-- Divide and round to the nearest number, ties to the even one. -/
def roundDiv (num den : Nat) : Nat :=
  let q := num / den
  let twice := 2 * (num % den)
  if den < twice ∨ (twice = den ∧ q % 2 = 1) then q + 1 else q

inductive Binary64 where
  /-- So many times two to the power of -1074. -/
  | finite (units : Nat)
  | infinity
  | nan
  deriving DecidableEq

namespace Binary64

/-- The number of fractional bits of the least positive number. -/
def unitBits : Nat := 1074

def significandBits : Nat := 53

/-- The least number of units that is too large to be represented. -/
def overflow : Nat := 1 <<< (1024 + unitBits)

/-- The number nearest to a quotient of units. With 53 bits or fewer in front of the point the
quotient is rounded to whole units, and otherwise to the step at which 53 bits are left. -/
def ofRatio (num den : Nat) : Binary64 :=
  let step := 1 <<< ((num / den).log2 + 1 - significandBits)
  let units := roundDiv num (den * step) * step
  if units < overflow then .finite units else .infinity

def ofNat (n : Nat) : Binary64 := ofRatio (n <<< unitBits) 1

def add : Binary64 → Binary64 → Binary64
  | .nan, _ | _, .nan => .nan
  | .infinity, _ | _, .infinity => .infinity
  | .finite a, .finite b => ofRatio (a + b) 1

/-- The rounded quotient. Zero by zero is not a number, anything else by zero is infinite. -/
def div : Binary64 → Binary64 → Binary64
  | .nan, _ | _, .nan | .infinity, .infinity => .nan
  | .infinity, .finite _ => .infinity
  | .finite _, .infinity => .finite 0
  | .finite a, .finite b =>
    if b = 0 then (if a = 0 then .nan else .infinity) else ofRatio (a <<< unitBits) b

/-- The encoding: the exponent field stands above 52 bits of the significand, whose leading bit is
implied unless the field is zero. -/
def bits : Binary64 → Nat
  | .finite units =>
    if units < 1 <<< 52 then units
    else
      let shift := units.log2 - 52
      (shift + 1) <<< 52 + (units >>> shift - 1 <<< 52)
  | .infinity => 0x7FF0000000000000
  | .nan => 0x7FF8000000000000

/-- A natural number in decimal with at least so many digits. -/
def digits (width n : Nat) : List Char := (Nat.toDigits 10 n).leftpad width '0'

/-- The decimal text with so many places; the exact value is rounded, ties to the even digit. -/
def fixed (places : Nat) : Binary64 → String
  | .finite units =>
    let scale := Nat.pow 10 places
    let n := roundDiv (units * scale) (1 <<< unitBits)
    let whole := toString (n / scale)
    if places = 0 then whole
    else whole ++ "." ++ String.ofList (digits places (n % scale))
  | .infinity => "inf"
  | .nan => "NaN"

end Binary64
end TaskMemory

/-
  Signed 64-bit arithmetic that says where it overflows.

  In C++ an `int64_t` sum or difference outside of the range of the type is undefined.  Here such an operation is
  `none`, so that "no operation overflows" is a statement about a definition and not an assumption of it.
-/
import Mathlib.Algebra.Group.Int.Defs

namespace CheckedInt

/-- The one place where the range is looked at: a result over the integers, where it is in range. -/
def exact (value : Int) : Option Int64 :=
  if -2 ^ 63 ≤ value ∧ value < 2 ^ 63 then some (Int64.ofInt value) else none

/-- `a + b`, where it does not overflow. -/
def add (a b : Int64) : Option Int64 := exact (a.toInt + b.toInt)

/-- `a - b`, where it does not overflow. -/
def sub (a b : Int64) : Option Int64 := exact (a.toInt - b.toInt)

/-- Within the range the operation exists, and is the one over the integers. -/
theorem exists_exact (value : Int) (hlow : -2 ^ 63 ≤ value) (hhigh : value < 2 ^ 63) :
    ∃ x, exact value = some x ∧ x.toInt = value :=
  ⟨Int64.ofInt value, if_pos ⟨hlow, hhigh⟩, Int64.toInt_ofInt_of_le hlow hhigh⟩

end CheckedInt

import Mathlib.Algebra.Group.Nat.Defs

/-!
# Arithmetic on 64-bit unsigned words

Words are natural numbers; `u64` reduces a result to the range of the type, which
is what Go does at every addition, subtraction and conversion.
-/

namespace EspressoProxy.Semantics

/-- The value of a computation stored in a `uint64`. -/
def u64 (value : Nat) : Nat := value % 2 ^ 64

/-- The predecessor computed by `word - 1` in `uint64`. -/
def u64Pred (word : Nat) : Nat := u64 (word + (2 ^ 64 - 1))

theorem u64_lt (value : Nat) : u64 value < 2 ^ 64 := Nat.mod_lt _ (by decide)

theorem u64_le (value : Nat) : u64 value ≤ value := Nat.mod_le _ _

theorem u64_of_lt {value : Nat} (bounded : value < 2 ^ 64) : u64 value = value :=
  Nat.mod_eq_of_lt bounded

end EspressoProxy.Semantics

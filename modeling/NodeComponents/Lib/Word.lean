import Mathlib.Algebra.GroupWithZero.Nat

/-!
# Words

Numbers below a size `m`, as a machine with checks computes on them: an operation whose
result is not a word fails. What an unchecked machine computes is the same as long as
no check fails, so the checked form of an expression says both when the unchecked one
can be trusted and what it is.

Truncation keeps the remainder, saturation the nearest word.
-/

namespace NodeComponents.Lib.Word

variable {m a b c : Nat}

/-- Addition that fails on overflow. -/
def checkedAdd (m a b : Nat) : Option Nat := if a + b < m then some (a + b) else none

/-- Subtraction that fails on underflow. -/
def checkedSub (a b : Nat) : Option Nat := if b ≤ a then some (a - b) else none

/-- Multiplication that fails on overflow. -/
def checkedMul (m a b : Nat) : Option Nat := if a * b < m then some (a * b) else none

/-- Division that fails on zero. -/
def checkedDiv (a b : Nat) : Option Nat := if b = 0 then none else some (a / b)

/-- Conversion to a word by dropping what does not fit. -/
def truncate (m a : Nat) : Nat := a % m

/-- Conversion to the nearest word. -/
def saturate (m a : Nat) : Nat := min a (m - 1)

theorem checkedAdd_eq_some : checkedAdd m a b = some c ↔ a + b < m ∧ a + b = c := by
  unfold checkedAdd
  rw [Option.ite_none_right_eq_some, Option.some.injEq]

theorem checkedSub_eq_some : checkedSub a b = some c ↔ b ≤ a ∧ a - b = c := by
  unfold checkedSub
  rw [Option.ite_none_right_eq_some, Option.some.injEq]

theorem checkedMul_eq_some : checkedMul m a b = some c ↔ a * b < m ∧ a * b = c := by
  unfold checkedMul
  rw [Option.ite_none_right_eq_some, Option.some.injEq]

theorem checkedDiv_eq_some : checkedDiv a b = some c ↔ b ≠ 0 ∧ a / b = c := by
  unfold checkedDiv
  rw [Option.ite_none_left_eq_some, Option.some.injEq]

theorem truncate_eq_iff (hm : 0 < m) : truncate m a = a ↔ a < m := by
  unfold truncate
  constructor
  · intro h
    rw [← h]
    exact Nat.mod_lt a hm
  · exact Nat.mod_eq_of_lt

/-- Truncating on the way does not change the truncated sum. -/
theorem truncate_truncate_add : truncate m (truncate m a + b) = truncate m (a + b) :=
  Nat.mod_add_mod a m b

theorem saturate_eq_iff (hm : 0 < m) : saturate m a = a ↔ a < m := by
  unfold saturate
  omega

end NodeComponents.Lib.Word

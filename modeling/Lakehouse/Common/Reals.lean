import Lakehouse.Common.Exact
import Lakehouse.Common.FloatOrder
import Mathlib.Analysis.Real.Sqrt
import Mathlib.Algebra.Order.Archimedean.Real.Basic
/-!
# Exact arithmetic

The reals as floats that never round: what the geometry computes over
exact arithmetic is what its definitions compute here. Every real is
finite. A real has no NaN, no infinity and no text; those operations, which
the geometry does not read, are left at a default.
-/

namespace Lakehouse

noncomputable section

instance atLeastTwo_ten : Nat.AtLeastTwo 10 := inferInstance

open Classical in
instance : PyFloat ℝ where
  ofInt n := n
  ofNumeral l := l.value
  nan := 0
  inf _ := 0
  eq x y := decide (x = y)
  lt x y := decide (x < y)
  abs x := |x|
  add x y := x + y
  sub x y := x - y
  mul x y := x * y
  div x y := x / y
  trunc x := if 0 ≤ x then ⌊x⌋ else ⌈x⌉
  round6 x := round (x * 10 ^ 6) / 10 ^ 6
  isFinite _ := true
  repr _ := []

open Classical in
instance : PyMath ℝ where
  sqrt x := Real.sqrt x
  hypot x y := Real.sqrt (x ^ 2 + y ^ 2)
  fixed7 _ := []
  ofText _ := none
  eqInt n x := decide ((n : ℝ) = x)
  hours x := round (x * 3600000000)
  totalSeconds us := us / 10 ^ 6

namespace Reals

variable {x y : ℝ} {n : ℤ}

/-- Integers are cast. -/
@[simp] theorem ofInt_eq : (PyFloat.ofInt n : ℝ) = n := rfl

/-- Zero is zero. -/
@[simp] theorem zero_eq : (PyMath.zero : ℝ) = 0 := Int.cast_zero

/-- Addition is exact. -/
@[simp] theorem add_eq : PyFloat.add x y = x + y := rfl

/-- Subtraction is exact. -/
@[simp] theorem sub_eq : PyFloat.sub x y = x - y := rfl

/-- Multiplication is exact. -/
@[simp] theorem mul_eq : PyFloat.mul x y = x * y := rfl

/-- Division is exact. -/
@[simp] theorem div_eq : PyFloat.div x y = x / y := rfl

/-- The absolute value is exact. -/
@[simp] theorem abs_eq : PyFloat.abs x = |x| := rfl

/-- The square root is exact. -/
@[simp] theorem sqrt_eq : PyMath.sqrt x = Real.sqrt x := rfl

/-- The distance from the origin is exact. -/
@[simp] theorem hypot_eq : PyMath.hypot x y = Real.sqrt (x ^ 2 + y ^ 2) := rfl

/-- Every real is finite. -/
@[simp] theorem isFinite_eq : PyFloat.isFinite x = true := rfl

/-- `<` is the order of the reals. -/
@[simp] theorem lt_iff : PyFloat.lt x y = true ↔ x < y := decide_eq_true_iff

/-- `==` is equality. -/
@[simp] theorem eq_iff : PyFloat.eq x y = true ↔ x = y := decide_eq_true_iff

/-- `<=` is the order of the reals. -/
@[simp] theorem le_iff : PyFloat.le x y = true ↔ x ≤ y := by
  rw [PyFloat.le, Bool.or_eq_true, lt_iff, eq_iff, le_iff_lt_or_eq]

end Reals

instance : ExactField ℝ where
  isFinite_eq _ := rfl
  ofInt_eq _ := rfl
  eqInt_iff := decide_eq_true_iff
  eq_iff := Reals.eq_iff
  lt_iff := Reals.lt_iff
  abs_eq _ := rfl
  add_eq _ _ := rfl
  sub_eq _ _ := rfl
  mul_eq _ _ := rfl
  div_eq _ _ := rfl

instance : OrderedFloat ℝ where
  number x := ((x : EReal) : WithBot EReal)
  lt_iff := by
    intro x y
    rw [Reals.lt_iff, WithBot.coe_lt_coe, EReal.coe_lt_coe_iff]
    exact (and_iff_right WithBot.coe_ne_bot).symm
  eq_iff := by
    intro x y
    rw [Reals.eq_iff, WithBot.coe_inj, EReal.coe_eq_coe_iff]
    exact (and_iff_right WithBot.coe_ne_bot).symm
  number_of_isFinite := fun _ => WithBot.coe_ne_bot
  number_ofInt := fun _ => rfl

namespace Reals

variable {x y : ℝ}

/-- The numbers are ordered as the reals are. -/
theorem number_le : OrderedFloat.number x ≤ OrderedFloat.number y ↔ x ≤ y := by
  change ((x : EReal) : WithBot EReal) ≤ ((y : EReal) : WithBot EReal) ↔ x ≤ y
  rw [WithBot.coe_le_coe, EReal.coe_le_coe_iff]

/-- The numbers are strictly ordered as the reals are. -/
theorem number_lt : OrderedFloat.number x < OrderedFloat.number y ↔ x < y := by
  rw [← not_le, number_le, not_le]

/-- The numbers tell the reals apart. -/
theorem number_inj : OrderedFloat.number x = OrderedFloat.number y ↔ x = y := by
  rw [le_antisymm_iff, number_le, number_le, ← le_antisymm_iff]

end Reals

instance : SquareRoots ℝ where
  mul_self_nonneg x := by
    rw [← Bool.not_eq_true, Reals.lt_iff, Reals.zero_eq, not_lt]
    exact mul_self_nonneg x
  add_nonneg := by
    intro x y hx hy
    rw [← Bool.not_eq_true, Reals.lt_iff, Reals.zero_eq, not_lt] at hx hy ⊢
    exact add_nonneg hx hy
  sqrt_ne_zero := by
    intro x hx hx0
    rw [← Bool.not_eq_true, Reals.lt_iff, Reals.zero_eq, not_lt] at hx
    rw [← Bool.not_eq_true, Reals.eq_iff, Reals.zero_eq] at hx0 ⊢
    exact Real.sqrt_ne_zero'.2 (lt_of_le_of_ne hx (Ne.symm hx0))

/-- There is one zero. -/
instance : SignlessZero ℝ where
  abs_congr h := by rw [Reals.number_inj.1 h]
  sqrt_congr h := by rw [Reals.number_inj.1 h]
  add_congr h h' := by rw [Reals.number_inj.1 h, Reals.number_inj.1 h']
  sub_congr h h' := by rw [Reals.number_inj.1 h, Reals.number_inj.1 h']
  mul_congr h h' := by rw [Reals.number_inj.1 h, Reals.number_inj.1 h']
  hypot_congr h h' := by rw [Reals.number_inj.1 h, Reals.number_inj.1 h']
  div_congr h h' _ := by rw [Reals.number_inj.1 h, Reals.number_inj.1 h']

end

end Lakehouse

import Lakehouse.Common.FloatMath
import Mathlib.Data.EReal.Basic
/-!
# How floats compare

A float is an extended real, or not a number. `OrderedFloat` says what the
comparisons make of that, infinities and NaNs included; `SquareRoots` and
`SignlessZero` are what the distances of the geometry rest on.
-/

namespace Lakehouse

/-- **What comparison promises.** -/
class OrderedFloat (F : Type) [PyFloat F] where
  /-- The extended real a float is; a NaN is below all. -/
  number : F → WithBot EReal
  lt_iff : ∀ {x y : F}, PyFloat.lt x y = true ↔ number x ≠ ⊥ ∧ number x < number y
  eq_iff : ∀ {x y : F}, PyFloat.eq x y = true ↔ number x ≠ ⊥ ∧ number x = number y
  number_of_isFinite : ∀ {x : F}, PyFloat.isFinite x = true → number x ≠ ⊥
  number_ofInt : ∀ {n : ℤ}, n.natAbs ≤ 2 ^ 53 →
    number (PyFloat.ofInt n : F) = (((n : ℝ) : EReal) : WithBot EReal)

/-- **A squared length has a root to divide by.** -/
class SquareRoots (F : Type) [PyFloat F] [PyMath F] : Prop where
  mul_self_nonneg : ∀ x : F, PyFloat.lt (PyFloat.mul x x) PyMath.zero = false
  add_nonneg : ∀ {x y : F}, PyFloat.lt x PyMath.zero = false → PyFloat.lt y PyMath.zero = false →
    PyFloat.lt (PyFloat.add x y) PyMath.zero = false
  sqrt_ne_zero : ∀ {x : F}, PyFloat.lt x PyMath.zero = false → PyFloat.eq x PyMath.zero = false →
    PyFloat.eq (PyMath.sqrt x) PyMath.zero = false

instance {F : Type} [PyFloat F] [LawfulFloat F] [PyMath F] [LawfulMath F] : SquareRoots F where
  mul_self_nonneg := LawfulMath.mul_self_nonneg
  add_nonneg := LawfulMath.add_nonneg
  sqrt_ne_zero := LawfulMath.sqrt_ne_zero

namespace OrderedFloat

variable {F : Type} [PyFloat F] [OrderedFloat F] {x y : F}

/-- A number that is not below another. -/
theorem lt_eq_false (hx : number x ≠ ⊥) : PyFloat.lt x y = false ↔ number y ≤ number x := by
  rw [← Bool.not_eq_true, lt_iff, and_iff_right hx, not_lt]

theorem le_iff : PyFloat.le x y = true ↔ number x ≠ ⊥ ∧ number x ≤ number y := by
  rw [PyFloat.le, Bool.or_eq_true, lt_iff, eq_iff, ← and_or_left, le_iff_lt_or_eq]

/-- **A positive float.** -/
theorem pos_of_not_le (hx : number x ≠ ⊥) (h : PyFloat.le x PyMath.zero = false) :
    number (PyMath.zero : F) < number x := by
  rw [← Bool.not_eq_true, le_iff, and_iff_right hx, not_le] at h
  exact h

theorem neg_one_lt_zero : number (PyFloat.ofInt (-1) : F) < number (PyMath.zero : F) := by
  rw [PyMath.zero, number_ofInt (by decide), number_ofInt (by decide), WithBot.coe_lt_coe,
    EReal.coe_lt_coe_iff]
  norm_num

end OrderedFloat

/-- **Arithmetic does not tell zeros apart**: what an operation makes as a
number depends on its operands as numbers. -/
class SignlessZero (F : Type) [PyFloat F] [PyMath F] [OrderedFloat F] : Prop where
  abs_congr : ∀ {x x' : F}, OrderedFloat.number x = OrderedFloat.number x' →
    OrderedFloat.number (PyFloat.abs x) = OrderedFloat.number (PyFloat.abs x')
  sqrt_congr : ∀ {x x' : F}, OrderedFloat.number x = OrderedFloat.number x' →
    OrderedFloat.number (PyMath.sqrt x) = OrderedFloat.number (PyMath.sqrt x')
  add_congr : ∀ {x x' y y' : F}, OrderedFloat.number x = OrderedFloat.number x' →
    OrderedFloat.number y = OrderedFloat.number y' →
    OrderedFloat.number (PyFloat.add x y) = OrderedFloat.number (PyFloat.add x' y')
  sub_congr : ∀ {x x' y y' : F}, OrderedFloat.number x = OrderedFloat.number x' →
    OrderedFloat.number y = OrderedFloat.number y' →
    OrderedFloat.number (PyFloat.sub x y) = OrderedFloat.number (PyFloat.sub x' y')
  mul_congr : ∀ {x x' y y' : F}, OrderedFloat.number x = OrderedFloat.number x' →
    OrderedFloat.number y = OrderedFloat.number y' →
    OrderedFloat.number (PyFloat.mul x y) = OrderedFloat.number (PyFloat.mul x' y')
  hypot_congr : ∀ {x x' y y' : F}, OrderedFloat.number x = OrderedFloat.number x' →
    OrderedFloat.number y = OrderedFloat.number y' →
    OrderedFloat.number (PyMath.hypot x y) = OrderedFloat.number (PyMath.hypot x' y')
  /-- A quotient, where the divisor is no zero. -/
  div_congr : ∀ {x x' y y' : F}, OrderedFloat.number x = OrderedFloat.number x' →
    OrderedFloat.number y = OrderedFloat.number y' → PyFloat.eq y PyMath.zero = false →
    OrderedFloat.number (PyFloat.div x y) = OrderedFloat.number (PyFloat.div x' y')

/-! ## Decimals -/

namespace Decimal

/-- The number a decimal is. Its infinities do not compare. -/
noncomputable def number : Decimal → WithBot EReal
  | fin neg m e => ((((toRat (fin neg m e) : ℚ) : ℝ) : EReal) : WithBot EReal)
  | _ => ⊥

noncomputable instance : OrderedFloat Decimal where
  number := number
  lt_iff := by
    intro x y
    cases x with
    | nan | inf _ => exact ⟨nofun, fun h => absurd rfl h.1⟩
    | fin b m e =>
      cases y with
      | nan | inf _ => exact ⟨nofun, fun h => absurd h.2 not_lt_bot⟩
      | fin b' m' e' =>
        rw [lt_fin, number, number, WithBot.coe_lt_coe, EReal.coe_lt_coe_iff, Rat.cast_lt]
        exact (and_iff_right WithBot.coe_ne_bot).symm
  eq_iff := by
    intro x y
    cases x with
    | nan | inf _ => exact ⟨nofun, fun h => absurd rfl h.1⟩
    | fin b m e =>
      cases y with
      | nan | inf _ => exact ⟨nofun, fun h => absurd h.2 WithBot.coe_ne_bot⟩
      | fin b' m' e' =>
        rw [eq_fin, number, number, WithBot.coe_inj, EReal.coe_eq_coe_iff, Rat.cast_inj]
        exact (and_iff_right WithBot.coe_ne_bot).symm
  number_of_isFinite := by
    intro x hx
    obtain ⟨b, m, e, rfl, -⟩ := isFinite_fin hx
    exact WithBot.coe_ne_bot
  number_ofInt := by
    intro n _
    have hv := toRat_ofSigned n 0
    obtain ⟨b, m, e, h, -⟩ := isFinite_fin (isFinite_make (decide (n < 0)) n.natAbs 0)
    change number (make (decide (n < 0)) n.natAbs 0) = _
    change toRat (make (decide (n < 0)) n.natAbs 0) = _ at hv
    rw [h] at hv ⊢
    rw [number, hv, zpow_zero, mul_one, Rat.cast_intCast]

end Decimal

end Lakehouse

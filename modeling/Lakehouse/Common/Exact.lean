import Lakehouse.Common.FloatMath
import Mathlib.Algebra.Order.Field.Basic
/-!
# Exact sums

Floats whose sums do not round: what a program says of totals over the
rationals is said of these. Decimals are such floats. Where nothing rounds
the floats are an ordered field.
-/

namespace Lakehouse

/-- **Exact addition**: finite floats are closed under sums, which are those
of the rationals, and an integer is the float it is read as. -/
class ExactSum (F : Type) [PyFloat F] [LawfulFloat F] : Prop where
  finite_add : ∀ {x y : F}, PyFloat.isFinite x = true → PyFloat.isFinite y = true →
    PyFloat.isFinite (PyFloat.add x y) = true
  val_add : ∀ {x y : F}, PyFloat.isFinite x = true → PyFloat.isFinite y = true →
    LawfulFloat.val (PyFloat.add x y) = LawfulFloat.val x + LawfulFloat.val y
  val_ofInt : ∀ {n : ℤ}, PyFloat.isFinite (PyFloat.ofInt n : F) = true →
    LawfulFloat.val (PyFloat.ofInt n : F) = n

instance : ExactSum Decimal where
  finite_add := by
    intro x y hx hy
    obtain ⟨b, m, e, rfl, -⟩ := Decimal.isFinite_fin hx
    obtain ⟨b', m', e', rfl, -⟩ := Decimal.isFinite_fin hy
    exact Decimal.isFinite_lift (· + ·) b b' m m' e e'
  val_add := by
    intro x y hx hy
    obtain ⟨b, m, e, rfl, -⟩ := Decimal.isFinite_fin hx
    obtain ⟨b', m', e', rfl, -⟩ := Decimal.isFinite_fin hy
    exact Decimal.toRat_add b b' m m' e e'
  val_ofInt := by
    intro n _
    change Decimal.toRat (Decimal.ofSigned n 0) = n
    rw [Decimal.toRat_ofSigned, zpow_zero, mul_one]

section Amount

variable {F : Type} [PyFloat F] [LawfulFloat F] [ExactSum F] {x y : F} {q r : ℚ}

omit [ExactSum F] in
/-- **A finite float of a value.** -/
def Amount (x : F) (q : ℚ) : Prop := PyFloat.isFinite x = true ∧ LawfulFloat.val x = q

/-- Amounts are added exactly. -/
theorem Amount.add (hx : Amount x q) (hy : Amount y r) : Amount (PyFloat.add x y) (q + r) :=
  ⟨ExactSum.finite_add hx.1 hy.1, by rw [ExactSum.val_add hx.1 hy.1, hx.2, hy.2]⟩

omit [ExactSum F] in
/-- Zero is an amount. -/
theorem Amount.zero : Amount (PyFloat.ofInt 0 : F) 0 :=
  ⟨LawfulFloat.finite_ofInt (by decide), by rw [LawfulFloat.val_ofInt (by decide), Int.cast_zero]⟩

end Amount

/-- **Exact arithmetic**: every float is finite and the operations are those
of an ordered field. What `float(text)` reads is left open. -/
class ExactField (F : Type) [PyFloat F] [PyMath F] [Field F] [LinearOrder F] : Prop where
  isFinite_eq : ∀ x : F, PyFloat.isFinite x = true
  ofInt_eq : ∀ n : ℤ, (PyFloat.ofInt n : F) = n
  eqInt_iff : ∀ {n : ℤ} {x : F}, PyMath.eqInt n x = true ↔ (n : F) = x
  eq_iff : ∀ {x y : F}, PyFloat.eq x y = true ↔ x = y
  lt_iff : ∀ {x y : F}, PyFloat.lt x y = true ↔ x < y
  abs_eq : ∀ x : F, PyFloat.abs x = |x|
  add_eq : ∀ x y : F, PyFloat.add x y = x + y
  sub_eq : ∀ x y : F, PyFloat.sub x y = x - y
  mul_eq : ∀ x y : F, PyFloat.mul x y = x * y
  div_eq : ∀ x y : F, PyFloat.div x y = x / y

namespace ExactField

variable {F : Type} [PyFloat F] [PyMath F] [Field F] [LinearOrder F] [ExactField F]

/-- The comparison is that of the order. -/
theorem le_iff {x y : F} : PyFloat.le x y = true ↔ x ≤ y := by
  rw [PyFloat.le, Bool.or_eq_true, lt_iff, eq_iff, le_iff_lt_or_eq]

/-- Zero is zero. -/
theorem zero_eq : (PyMath.zero : F) = 0 := by
  rw [PyMath.zero, ofInt_eq, Int.cast_zero]

/-- The minimum is commutative. -/
theorem min_comm (x y : F) : PyMath.min x y = PyMath.min y x := by
  simp only [PyMath.min, lt_iff]
  rcases lt_trichotomy x y with h | h | h
  · rw [if_neg h.asymm, if_pos h]
  · rw [h]
  · rw [if_pos h, if_neg h.asymm]

/-- The maximum is commutative. -/
theorem max_comm (x y : F) : PyMath.max x y = PyMath.max y x := by
  simp only [PyMath.max, lt_iff]
  rcases lt_trichotomy x y with h | h | h
  · rw [if_pos h, if_neg h.asymm]
  · rw [h]
  · rw [if_neg h.asymm, if_pos h]

/-- Only a division by zero raises. -/
theorem divide_eq {x y : F} (h : y ≠ 0) : PyMath.divide x y = .ok (x / y) := by
  rw [PyMath.divide, if_neg (by rwa [eq_iff, zero_eq]), div_eq]

end ExactField

end Lakehouse

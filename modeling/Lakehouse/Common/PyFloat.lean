import Lakehouse.Common.Numeral
/-!
# Python floats

The float operations the program uses, as an interface over an arbitrary
carrier, so that one model serves exact arithmetic and IEEE doubles
alike. `LawfulFloat` is what the language documents of them: a finite
float is a rational, comparison is of the rationals, `float(text)` is a
function of the number the text denotes, and `repr` writes a numeral
that reads back as the float.
-/

namespace Lakehouse

/-- **The float operations of the language.** -/
class PyFloat (F : Type) where
  /-- `float(n)`, rounding to the nearest float. -/
  ofInt : ℤ → F
  /-- `float(text)` of a numeral. -/
  ofNumeral : Numeral → F
  /-- `float("nan")`. -/
  nan : F
  /-- `float("inf")`, or its negative. -/
  inf : Bool → F
  eq : F → F → Bool
  lt : F → F → Bool
  abs : F → F
  add : F → F → F
  sub : F → F → F
  mul : F → F → F
  div : F → F → F
  /-- `int(x)` of a finite float, truncating towards zero. -/
  trunc : F → ℤ
  /-- `round(x, 6)`. -/
  round6 : F → F
  isFinite : F → Bool
  repr : F → Text

namespace PyFloat

variable {F : Type} [PyFloat F]

/-- `x <= y`. -/
def le (x y : F) : Bool := lt x y || eq x y

end PyFloat

/-- The shape `repr` writes a positive finite float in: a numeral with a
fraction or an exponent, whose exponent carries its sign. -/
structure Numeral.IsRepr (l : Numeral) : Prop extends l.Wf where
  neg : l.neg = false
  real : l.isInt = false
  sign : ∀ s e, l.exp = some (s, e) → s ≠ .none

/-- **What the language documents of its floats.** -/
class LawfulFloat (F : Type) [PyFloat F] where
  /-- The rational a finite float is. -/
  val : F → ℚ
  eq_iff : ∀ {x y : F}, PyFloat.isFinite x = true → PyFloat.isFinite y = true →
    (PyFloat.eq x y = true ↔ val x = val y)
  lt_iff : ∀ {x y : F}, PyFloat.isFinite x = true → PyFloat.isFinite y = true →
    (PyFloat.lt x y = true ↔ val x < val y)
  finite_abs : ∀ {x : F}, PyFloat.isFinite x = true → PyFloat.isFinite (PyFloat.abs x) = true
  val_abs : ∀ {x : F}, PyFloat.isFinite x = true → val (PyFloat.abs x) = |val x|
  /-- Apart from the two zeros, a finite float is its rational. -/
  ext : ∀ {x y : F}, PyFloat.isFinite x = true → PyFloat.isFinite y = true → val x ≠ 0 →
    val x = val y → x = y
  /-- Integers up to `2^53` are floats. -/
  finite_ofInt : ∀ {n : ℤ}, n.natAbs ≤ 2 ^ 53 → PyFloat.isFinite (PyFloat.ofInt n : F) = true
  val_ofInt : ∀ {n : ℤ}, n.natAbs ≤ 2 ^ 53 → val (PyFloat.ofInt n : F) = n
  /-- An integer numeral reads as the integer it denotes does. -/
  ofNumeral_int : ∀ {l : Numeral}, l.Wf → l.isInt = true → l.intValue ≠ 0 →
    (PyFloat.ofNumeral l : F) = PyFloat.ofInt l.intValue
  /-- A numeral that denotes zero reads as a zero. -/
  ofNumeral_zero : ∀ {l : Numeral}, l.value = 0 →
    PyFloat.isFinite (PyFloat.ofNumeral l : F) = true ∧ val (PyFloat.ofNumeral l : F) = 0
  repr_shape : ∀ {x : F}, PyFloat.isFinite x = true → 0 < val x →
    ∃ l : Numeral, l.IsRepr ∧ PyFloat.repr x = l.text
  /-- `repr` writes the sign in front of the absolute value. -/
  repr_neg : ∀ {x : F}, PyFloat.isFinite x = true → val x < 0 →
    PyFloat.repr x = 0x2D :: PyFloat.repr (PyFloat.abs x)
  /-- Both zeros. -/
  repr_zero : ∀ {x : F}, PyFloat.isFinite x = true → val x = 0 →
    PyFloat.repr x = lit "0.0" ∨ PyFloat.repr x = lit "-0.0"
  /-- Reading what `repr` wrote gives the float back. -/
  ofNumeral_repr : ∀ {x : F} {l : Numeral}, PyFloat.isFinite x = true → l.Wf →
    PyFloat.repr x = l.text → (PyFloat.ofNumeral l : F) = x
  /-- A numeral reads as the number it denotes, whatever its form. -/
  ofNumeral_congr : ∀ {l l' : Numeral}, l.value = l'.value → l.value ≠ 0 →
    (PyFloat.ofNumeral l : F) = PyFloat.ofNumeral l'
  /-- A float no greater than `2^53` that is an integer is written with
  all its digits and a zero fraction. -/
  repr_ofInt : ∀ {n : ℕ}, 0 < n → n ≤ 2 ^ 53 →
    PyFloat.repr (PyFloat.ofInt n : F) = Text.ofNat n ++ lit ".0"

end Lakehouse

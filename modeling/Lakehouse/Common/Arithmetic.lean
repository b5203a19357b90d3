import Lakehouse.Common.FloatMath
import Mathlib.Algebra.BigOperators.Group.List.Basic
import Mathlib.Data.Rat.Floor
/-!
# The arithmetic of statistics

The number operations of sums, quantiles and ratios, for floats and for
exact rationals alike. A figure is computed the same way over either; over
the rationals a sum and a sorted list do not depend on the order the
numbers came in.
-/

namespace Lakehouse

/-- **The number operations of a statistic.** -/
class Arithmetic (F : Type) where
  /-- `float(n)`. -/
  ofInt : ℤ → F
  /-- A literal. -/
  ofNumeral : Numeral → F
  eq : F → F → Bool
  lt : F → F → Bool
  abs : F → F
  add : F → F → F
  sub : F → F → F
  mul : F → F → F
  div : F → F → F
  /-- `int(x)`, towards zero. -/
  trunc : F → ℤ
  /-- `round(x, 6)`. -/
  round6 : F → F
  isFinite : F → Bool
  /-- `timedelta(microseconds=us).total_seconds()`. -/
  totalSeconds : ℤ → F

/-- Floats. -/
instance {F : Type} [PyFloat F] [PyMath F] : Arithmetic F where
  ofInt := PyFloat.ofInt
  ofNumeral := PyFloat.ofNumeral
  eq := PyFloat.eq
  lt := PyFloat.lt
  abs := PyFloat.abs
  add := PyFloat.add
  sub := PyFloat.sub
  mul := PyFloat.mul
  div := PyFloat.div
  trunc := PyFloat.trunc
  round6 := PyFloat.round6
  isFinite := PyFloat.isFinite
  totalSeconds := PyMath.totalSeconds

namespace Arithmetic

section Operations

variable {F : Type} [Arithmetic F]

/-- `x <= y`. -/
def le (x y : F) : Bool := lt x y || eq x y

/-- `x / y`. -/
def divide (x y : F) : Except PyError F :=
  if eq y (ofInt 0) then .error .zeroDivisionError else .ok (div x y)

/-- `sorted(values)`, which asks for `<` only. -/
def sorted (values : List F) : List F := values.insertionSort fun x y => lt y x = false

/-- One more number into a sum and its running compensation. -/
def addCompensated (s : F × F) (x : F) : F × F :=
  let t := add s.1 x
  (t, add s.2 (if le (abs x) (abs s.1) then add (sub s.1 t) x else add (sub x t) s.1))

/-- `sum(values)` of floats, compensated as Neumaier does it; the
compensation is left out where it is zero or not finite. -/
def sum : List F → F
  | [] => ofInt 0
  | x :: xs =>
    let s := xs.foldl addCompensated (add (ofInt 0) x, ofInt 0)
    if eq s.2 (ofInt 0) = false && isFinite s.2 then add s.1 s.2 else s.1

end Operations

/-! ## Exact rationals -/

/-- `round(q, 6)`, ties to even. -/
def roundRat (q : ℚ) : ℚ :=
  let n := ⌊q * 10 ^ 6⌋
  let r := q * 10 ^ 6 - n
  (if r < 1 / 2 then n else if 1 / 2 < r then n + 1 else n + n % 2 : ℤ) / 10 ^ 6

instance : Arithmetic ℚ where
  ofInt n := n
  ofNumeral := Numeral.value
  eq x y := decide (x = y)
  lt x y := decide (x < y)
  abs x := |x|
  add := (· + ·)
  sub := (· - ·)
  mul := (· * ·)
  div := (· / ·)
  trunc q := if 0 ≤ q then ⌊q⌋ else ⌈q⌉
  round6 := roundRat
  isFinite _ := true
  totalSeconds us := us / 10 ^ 6

theorem sorted_perm {l l' : List ℚ} (h : l.Perm l') : sorted l = sorted l' := by
  have htotal : Std.Total fun x y : ℚ => lt y x = false := ⟨fun x y => by
    simpa [lt] using le_total x y⟩
  have htrans : IsTrans ℚ fun x y : ℚ => lt y x = false := ⟨fun x y z hxy hyz => by
    simp only [lt, decide_eq_false_iff_not, not_lt] at hxy hyz ⊢
    exact hxy.trans hyz⟩
  have hp : (sorted l).Perm (sorted l') :=
    (List.perm_insertionSort _ l).trans (h.trans (List.perm_insertionSort _ l').symm)
  refine List.Perm.eq_of_pairwise (fun x y _ _ hxy hyx => ?_) (List.pairwise_insertionSort _ l)
    (List.pairwise_insertionSort _ l') hp
  simp only [lt, decide_eq_false_iff_not, not_lt] at hxy hyx
  exact le_antisymm hxy hyx

/-- An exact sum needs no compensation. -/
theorem foldl_addCompensated (l : List ℚ) (s : ℚ) :
    l.foldl addCompensated (s, 0) = (s + l.sum, 0) := by
  induction l generalizing s with
  | nil => simp
  | cons x l ih =>
    have hstep : addCompensated (s, 0) x = (s + x, 0) := by
      simp only [addCompensated, add, sub, Prod.mk.injEq, true_and]
      split_ifs <;> ring
    rw [List.foldl_cons, hstep, ih, List.sum_cons, add_assoc]

theorem sum_rat (l : List ℚ) : sum l = l.sum := by
  cases l with
  | nil => simp [sum, ofInt]
  | cons x l =>
    have hfold : l.foldl addCompensated (add (ofInt 0) x, ofInt 0) = (x + l.sum, 0) := by
      simp only [ofInt, add, Int.cast_zero, zero_add]
      exact foldl_addCompensated l x
    rw [sum, hfold]
    simp [eq, ofInt]

theorem sum_perm {l l' : List ℚ} (h : l.Perm l') : sum l = sum l' := by
  rw [sum_rat, sum_rat, h.sum_eq]

/-! ## Durations -/

/-- A duration that is not negative is not, in the unit of some number of
seconds. -/
class LawfulDurations (F : Type) [Arithmetic F] : Prop where
  duration_nonneg : ∀ {us : ℤ} {n : ℕ}, 0 ≤ us → 0 < n → n ≤ 2 ^ 53 →
    le (ofInt 0) (div (totalSeconds us) (ofInt n) : F) = true

instance : LawfulDurations ℚ where
  duration_nonneg := by
    intro us n h _ _
    have hq : (0 : ℚ) ≤ us / 10 ^ 6 / n := by positivity
    simpa [le, lt, eq, div, ofInt, totalSeconds, le_iff_lt_or_eq] using hq

instance : LawfulDurations Decimal where
  duration_nonneg := by
    intro us n h _ _
    have hus : decide (us < 0) = false := decide_eq_false (not_lt.2 h)
    have hn : decide ((n : ℤ) < 0) = false := decide_eq_false (not_lt.2 (Int.natCast_nonneg n))
    obtain ⟨m, e, hm, -⟩ := Decimal.make_spec (decide (us < 0)) us.natAbs (-6)
    obtain ⟨m', e', hm', -⟩ := Decimal.make_spec (decide ((n : ℤ) < 0)) (n : ℤ).natAbs 0
    change PyFloat.le (PyMath.zero : Decimal) (PyFloat.div (Decimal.ofSigned us (-6))
      (Decimal.ofSigned n 0)) = true
    rw [Decimal.ofSigned, Decimal.ofSigned, hm, hm', hus, hn]
    change PyFloat.le (PyMath.zero : Decimal) (Decimal.make false _ _) = true
    rw [PyFloat.le_iff Decimal.isFinite_zero (Decimal.isFinite_make _ _ _)]
    change Decimal.toRat _ ≤ Decimal.toRat _
    rw [Decimal.toRat_zero, Decimal.toRat_make, Decimal.signed, if_neg (by simp)]
    exact mul_nonneg (Int.cast_nonneg (Int.natCast_nonneg _)) (zpow_nonneg (by norm_num) _)

end Arithmetic

end Lakehouse

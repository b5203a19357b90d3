import Lakehouse.Common.Decimal
import Lakehouse.Error
/-!
# Square roots, halves and texts of floats

The float operations of the geometry and of the durations, as an
interface beside `PyFloat`. `LawfulMath` is what IEEE arithmetic promises
of them: a square is not negative, a square root is zero only at zero, a
difference is zero only between equals, and a float that is not tiny is
halved exactly.
-/

namespace Lakehouse

/-- **The float functions of `math`, `str` and `datetime`.** -/
class PyMath (F : Type) where
  /-- `math.sqrt(x)`, where `x` is not negative. -/
  sqrt : F → F
  /-- `math.hypot(x, y)`. -/
  hypot : F → F → F
  /-- `f"{x:.7f}"`. -/
  fixed7 : F → Text
  /-- `float(text)`, or `ValueError`. -/
  ofText : Text → Option F
  /-- `n == x` of an `int` and a `float`, compared exactly. -/
  eqInt : ℤ → F → Bool
  /-- `timedelta(hours=x)`, in microseconds, rounded half to even. -/
  hours : F → ℤ
  /-- `timedelta(microseconds=us).total_seconds()`. -/
  totalSeconds : ℤ → F

namespace PyMath

variable {F : Type} [PyFloat F]

def zero : F := PyFloat.ofInt 0

/-- `x / y`. -/
def divide (x y : F) : Except PyError F :=
  if PyFloat.eq y zero then .error .zeroDivisionError else .ok (PyFloat.div x y)

/-- `math.sqrt(x)`. -/
def squareRoot [PyMath F] (x : F) : Except PyError F :=
  if PyFloat.lt x zero then .error (.valueError (lit "math domain error")) else .ok (sqrt x)

/-- `int(timedelta(microseconds=us).total_seconds())`. -/
def wholeSeconds [PyMath F] (us : ℤ) : ℤ := PyFloat.trunc (totalSeconds us : F)

/-- `min(x, y)`. -/
def min (x y : F) : F := if PyFloat.lt y x then y else x

/-- `max(x, y)`. -/
def max (x y : F) : F := if PyFloat.lt x y then y else x

end PyMath

/-- **What IEEE arithmetic promises of them.** -/
class LawfulMath (F : Type) [PyFloat F] [LawfulFloat F] [PyMath F] : Prop where
  mul_self_nonneg : ∀ x : F, PyFloat.lt (PyFloat.mul x x) PyMath.zero = false
  add_nonneg : ∀ {x y : F}, PyFloat.lt x PyMath.zero = false → PyFloat.lt y PyMath.zero = false →
    PyFloat.lt (PyFloat.add x y) PyMath.zero = false
  sqrt_ne_zero : ∀ {x : F}, PyFloat.lt x PyMath.zero = false → PyFloat.eq x PyMath.zero = false →
    PyFloat.eq (PyMath.sqrt x) PyMath.zero = false
  /-- Underflow is gradual. -/
  val_eq_of_sub : ∀ {x y : F}, PyFloat.isFinite x = true → PyFloat.isFinite y = true →
    PyFloat.eq (PyFloat.sub x y) PyMath.zero = true → LawfulFloat.val x = LawfulFloat.val y
  /-- Halving is exact above the subnormal floats. -/
  half : ∀ {x : F}, PyFloat.isFinite x = true → (1 / 2 ^ 240 : ℚ) ≤ LawfulFloat.val x →
    PyFloat.isFinite (PyFloat.div x (PyFloat.ofInt 2)) = true ∧
      LawfulFloat.val (PyFloat.div x (PyFloat.ofInt 2)) = LawfulFloat.val x / 2
  /-- A numeral reads as a float near the number it denotes. -/
  ofNumeral_near : ∀ {l : Numeral}, l.Wf → (1 / 2 ^ 200 : ℚ) ≤ l.value → l.value ≤ 2 ^ 200 →
    PyFloat.isFinite (PyFloat.ofNumeral l : F) = true ∧
      l.value / 2 ≤ LawfulFloat.val (PyFloat.ofNumeral l : F)
  /-- A week has `604800` seconds. -/
  hours_le : ∀ {x : F}, PyFloat.isFinite x = true → 0 < LawfulFloat.val x →
    LawfulFloat.val x ≤ 168 → (PyMath.hours x).natAbs ≤ 604800000000
  wholeSeconds_le : ∀ us : ℤ, (PyMath.wholeSeconds (F := F) us).natAbs ≤ us.natAbs

section Comparison

variable {F : Type} [PyFloat F] [LawfulFloat F]

/-- Finite floats compare as their values do. -/
theorem PyFloat.le_iff {x y : F} (hx : PyFloat.isFinite x = true) (hy : PyFloat.isFinite y = true) :
    PyFloat.le x y = true ↔ LawfulFloat.val x ≤ LawfulFloat.val y := by
  rw [PyFloat.le, Bool.or_eq_true, LawfulFloat.lt_iff hx hy, LawfulFloat.eq_iff hx hy,
    le_iff_lt_or_eq]

/-- A finite float is not below another where its value is not. -/
theorem PyFloat.lt_eq_false_iff {x y : F} (hx : PyFloat.isFinite x = true)
    (hy : PyFloat.isFinite y = true) :
    PyFloat.lt x y = false ↔ LawfulFloat.val y ≤ LawfulFloat.val x := by
  rw [← Bool.not_eq_true, LawfulFloat.lt_iff hx hy, not_lt]

end Comparison

/-! ## Decimals -/

namespace Decimal

/-- The square root of a significand, to twenty places. -/
def sqrtParts (m : ℕ) (e : ℤ) : ℕ × ℤ :=
  if e % 2 = 0 then (Nat.sqrt (m * 10 ^ 40), (e - 40) / 2)
  else (Nat.sqrt (m * 10 ^ 41), (e - 41) / 2)

/-- A magnitude in units of `10 ^ -k`, rounded half to even. -/
def scaled (k m : ℕ) (e : ℤ) : ℕ :=
  if -k ≤ e then m * 10 ^ (e + k).toNat else roundHalfEven m (-e - k).toNat

def sqrt : Decimal → Decimal
  | fin false m e => make false (sqrtParts m e).1 (sqrtParts m e).2
  | fin true 0 e => fin true 0 e
  | _ => nan

instance : PyMath Decimal where
  sqrt := sqrt
  hypot x y := sqrt (PyFloat.add (PyFloat.mul x x) (PyFloat.mul y y))
  fixed7
    | fin neg m e =>
      (if neg then [0x2D] else []) ++ Text.ofNat (scaled 7 m e / 10 ^ 7) ++
        0x2E :: padded 7 (scaled 7 m e % 10 ^ 7)
    | x => PyFloat.repr x
  ofText t :=
    match scanNumeral t.strip with
    | some (l, []) => some (PyFloat.ofNumeral l)
    | _ => none
  eqInt n x := PyFloat.eq (PyFloat.ofInt n) x
  hours
    | fin neg m e => signed neg (scaled 0 (m * 3600000000) e)
    | _ => 0
  totalSeconds us := ofSigned us (-6)

/-- An operation on finite decimals gives a finite one. -/
theorem isFinite_lift (f : ℤ → ℤ → ℤ) (b b' : Bool) (m m' : ℕ) (e e' : ℤ) :
    PyFloat.isFinite (lift f (fin b m e) (fin b' m' e')) = true :=
  isFinite_make _ _ _

/-- The value of a signed mantissa with an exponent. -/
theorem toRat_ofSigned (m e : ℤ) : toRat (ofSigned m e) = m * 10 ^ e := by
  rw [ofSigned, toRat_make]
  congr 2
  unfold signed
  simp only [decide_eq_true_eq]
  split_ifs
  all_goals omega

/-- Sums and differences are exact. -/
theorem toRat_add (b b' : Bool) (m m' : ℕ) (e e' : ℤ) :
    toRat (PyFloat.add (fin b m e) (fin b' m' e')) =
      toRat (fin b m e) + toRat (fin b' m' e') := by
  obtain ⟨h₁, h₂⟩ := align_spec (signed b m) e (signed b' m') e'
  change toRat (ofSigned ((align (signed b m) e (signed b' m') e').1 +
    (align (signed b m) e (signed b' m') e').2) (min e e')) = _
  rw [toRat_ofSigned, Int.cast_add, add_mul, h₁, h₂]
  rfl

/-- Subtraction of decimals is exact. -/
theorem toRat_sub (b b' : Bool) (m m' : ℕ) (e e' : ℤ) :
    toRat (PyFloat.sub (fin b m e) (fin b' m' e')) =
      toRat (fin b m e) - toRat (fin b' m' e') := by
  obtain ⟨h₁, h₂⟩ := align_spec (signed b m) e (signed b' m') e'
  change toRat (ofSigned ((align (signed b m) e (signed b' m') e').1 -
    (align (signed b m) e (signed b' m') e').2) (min e e')) = _
  rw [toRat_ofSigned, Int.cast_sub, sub_mul, h₁, h₂]
  rfl

/-- Comparison does not look at the normal form. -/
theorem lt_fin (b b' : Bool) (m m' : ℕ) (e e' : ℤ) :
    PyFloat.lt (fin b m e) (fin b' m' e') = true ↔ toRat (fin b m e) < toRat (fin b' m' e') := by
  obtain ⟨h₁, h₂⟩ := align_spec (signed b m) e (signed b' m') e'
  rw [toRat, toRat, ← h₁, ← h₂, mul_lt_mul_iff_left₀ (zpow_pos (by norm_num) _)]
  change decide _ = true ↔ _
  rw [decide_eq_true_eq, Int.cast_lt]

/-- Decimals are equal where their values are. -/
theorem eq_fin (b b' : Bool) (m m' : ℕ) (e e' : ℤ) :
    PyFloat.eq (fin b m e) (fin b' m' e') = true ↔ toRat (fin b m e) = toRat (fin b' m' e') := by
  obtain ⟨h₁, h₂⟩ := align_spec (signed b m) e (signed b' m') e'
  rw [toRat, toRat, ← h₁, ← h₂, mul_left_inj' (zpow_ne_zero _ (by norm_num))]
  change decide _ = true ↔ _
  rw [decide_eq_true_eq, Int.cast_inj]

/-- Zero is finite. -/
theorem isFinite_zero : PyFloat.isFinite (PyMath.zero : Decimal) = true := by decide

/-- Zero has the value zero. -/
theorem toRat_zero : toRat (PyMath.zero : Decimal) = 0 := by
  change toRat (ofSigned 0 0) = 0
  rw [toRat_ofSigned]
  simp

/-- A finite decimal that is not below zero. -/
theorem lt_zero_eq_false {b : Bool} {m : ℕ} {e : ℤ} :
    PyFloat.lt (fin b m e) PyMath.zero = false ↔ 0 ≤ toRat (fin b m e) := by
  have h := lt_fin b false m 0 e 0
  rw [show (PyMath.zero : Decimal) = fin false 0 0 from rfl, ← not_lt, ← toRat_zero,
    show (PyMath.zero : Decimal) = fin false 0 0 from rfl, ← h, Bool.not_eq_true]

/-- The integer root of a mantissa other than zero is not zero. -/
theorem sqrtParts_pos {m : ℕ} (hm : m ≠ 0) (e : ℤ) : (sqrtParts m e).1 ≠ 0 := by
  unfold sqrtParts
  split_ifs
  all_goals
    rw [Nat.sqrt_eq_zero.ne]
    positivity

/-- A finite decimal equals zero where its value does. -/
theorem eq_zero_of_isFinite {x : Decimal} (h : PyFloat.isFinite x = true) :
    PyFloat.eq x PyMath.zero = true ↔ toRat x = 0 := by
  rw [eq_iff_toRat h isFinite_zero, toRat_zero]

/-- A signed mantissa vanishes with the mantissa. -/
theorem signed_eq_zero {b : Bool} {m : ℕ} : signed b m = 0 ↔ m = 0 := by
  unfold signed
  split_ifs
  all_goals omega

/-- Half of a decimal, forty places below its mantissa. -/
theorem div_two (b : Bool) (m : ℕ) (e : ℤ) :
    PyFloat.div (fin b m e) (PyFloat.ofInt 2) = make (b != false) (m * 10 ^ 40 / 2) (e - 0 - 40) :=
  rfl

/-- Halving a decimal is exact. -/
theorem toRat_half (b : Bool) (m : ℕ) (e : ℤ) :
    toRat (PyFloat.div (fin b m e) (PyFloat.ofInt 2)) = toRat (fin b m e) / 2 := by
  rw [div_two, toRat_make, Bool.bne_false, toRat]
  have hm : m * 10 ^ 40 / 2 = m * (5 * 10 ^ 39) := by
    rw [show m * 10 ^ 40 = m * (5 * 10 ^ 39) * 2 by ring, Nat.mul_div_cancel _ (by norm_num)]
  have hs : ((signed b (m * (5 * 10 ^ 39)) : ℤ) : ℚ) = signed b m * (5 * 10 ^ 39) := by
    cases b <;> (simp only [signed, if_true, Bool.false_eq_true, if_false]; push_cast; ring)
  have he : (10 : ℚ) ^ (e - 0 - 40) = 10 ^ e / 10 ^ 40 := by
    rw [sub_zero, zpow_sub₀ (by norm_num)]
    norm_cast
  rw [hm, hs, he]
  ring

/-- Rounding does not leave an integer bound. -/
theorem roundHalfEven_le {m k b : ℕ} (h : m ≤ b * 10 ^ k) : roundHalfEven m k ≤ b := by
  have hpos : 0 < 10 ^ k := by positivity
  have hdiv := Nat.div_add_mod m (10 ^ k)
  have hq : m / 10 ^ k ≤ b := Nat.div_le_of_le_mul (by rwa [mul_comm])
  unfold roundHalfEven
  simp only
  obtain hlt | heq := Nat.lt_or_eq_of_le hq
  · split_ifs <;> omega
  · have hmod : m % 10 ^ k = 0 := by
      rw [heq, mul_comm] at hdiv
      omega
    rw [if_pos (by omega)]
    exact hq

/-- A decimal cut to an integer is within the bounds of the decimal. -/
theorem scaled_le {m b : ℕ} {e : ℤ} (h : (m : ℚ) * 10 ^ e ≤ b) : scaled 0 m e ≤ b := by
  unfold scaled
  split_ifs with he
  · obtain ⟨k, rfl⟩ : ∃ k : ℕ, e = k := ⟨e.toNat, by omega⟩
    rw [zpow_natCast] at h
    rw [show ((k : ℤ) + (0 : ℕ)).toNat = k by omega]
    exact_mod_cast h
  · obtain ⟨k, rfl⟩ : ∃ k : ℕ, e = -k := ⟨(-e).toNat, by omega⟩
    rw [zpow_neg, zpow_natCast, ← div_eq_mul_inv, div_le_iff₀ (by positivity)] at h
    rw [show (-(-(k : ℤ)) - (0 : ℕ)).toNat = k by omega]
    exact roundHalfEven_le (by exact_mod_cast h)

instance : LawfulMath Decimal where
  mul_self_nonneg x := by
    cases x with
    | nan | inf _ => rfl
    | fin b m e =>
      change PyFloat.lt (make (b != b) (m * m) (e + e)) _ = false
      obtain ⟨m', e', h, -⟩ := make_spec (b != b) (m * m) (e + e)
      have hv := toRat_make (b != b) (m * m) (e + e)
      rw [h] at hv ⊢
      rw [lt_zero_eq_false, hv, bne_self_eq_false, signed, if_neg (by simp)]
      exact mul_nonneg (Int.cast_nonneg (Int.natCast_nonneg _)) (zpow_nonneg (by norm_num) _)
  add_nonneg := by
    intro x y hx hy
    cases x with
    | nan | inf _ => rfl
    | fin b m e =>
      cases y with
      | nan | inf _ => rfl
      | fin b' m' e' =>
        obtain ⟨c, n, f, h, -⟩ := isFinite_fin (isFinite_lift (· + ·) b b' m m' e e')
        have hv := toRat_add b b' m m' e e'
        change PyFloat.lt (lift (· + ·) _ _) _ = false
        change toRat (lift (· + ·) _ _) = _ at hv
        rw [h] at hv ⊢
        rw [lt_zero_eq_false] at hx hy ⊢
        rw [hv]
        exact add_nonneg hx hy
  sqrt_ne_zero := by
    intro x hx h0
    cases x with
    | nan | inf _ => rfl
    | fin b m e =>
      cases b with
      | false =>
        have hm : m ≠ 0 := by
          rintro rfl
          have hzero : toRat (fin false 0 e) = toRat (fin false 0 0) := by simp [toRat, signed]
          exact absurd ((eq_fin false false 0 0 e 0).2 hzero) (by rw [← Bool.not_eq_true] at h0; exact h0)
        change PyFloat.eq (make false (sqrtParts m e).1 (sqrtParts m e).2) _ = false
        rw [← Bool.not_eq_true, eq_zero_of_isFinite (isFinite_make _ _ _), toRat_make, mul_eq_zero,
          not_or]
        exact ⟨Int.cast_ne_zero.2 (signed_eq_zero.not.2 (sqrtParts_pos hm e)),
          zpow_ne_zero _ (by norm_num)⟩
      | true =>
        cases m with
        | zero => exact h0
        | succ m => rfl
  val_eq_of_sub := by
    intro x y hx hy h
    obtain ⟨b, m, e, rfl, -⟩ := isFinite_fin hx
    obtain ⟨b', m', e', rfl, -⟩ := isFinite_fin hy
    have hv := toRat_sub b b' m m' e e'
    have h0 := (eq_zero_of_isFinite (isFinite_lift (· - ·) b b' m m' e e')).1 h
    exact sub_eq_zero.1 (hv.symm.trans h0)
  half := by
    intro x hx _
    obtain ⟨b, m, e, rfl, -⟩ := isFinite_fin hx
    refine ⟨?_, toRat_half b m e⟩
    rw [div_two]
    exact isFinite_make _ _ _
  ofNumeral_near := by
    intro l _ h0 _
    refine ⟨isFinite_make _ _ _, ?_⟩
    have hv : toRat (make l.neg (digitsValue l.digits) l.exponent) = l.value := by
      rw [toRat_make, Numeral.value]
      cases l.neg <;> simp [signed]
    have hmin : (0 : ℚ) ≤ 1 / 2 ^ 200 := by positivity
    have hpos : 0 ≤ l.value := hmin.trans h0
    change l.value / 2 ≤ toRat (make _ _ _)
    rw [hv]
    linarith
  hours_le := by
    intro x hx hpos hle
    obtain ⟨b, m, e, rfl, -⟩ := isFinite_fin hx
    change (signed b (scaled 0 (m * 3600000000) e)).natAbs ≤ _
    have habs : ∀ n : ℕ, (signed b n).natAbs = n := by
      intro n
      cases b <;> simp [signed]
    rw [habs]
    refine scaled_le ?_
    change 0 < toRat (fin b m e) at hpos
    change toRat (fin b m e) ≤ 168 at hle
    cases b with
    | false =>
      simp only [toRat, signed, Bool.false_eq_true, if_false, Int.cast_natCast] at hle
      push_cast
      linarith
    | true =>
      simp only [toRat, signed, if_true, Int.cast_neg, Int.cast_natCast] at hpos
      have hneg : (0 : ℚ) ≤ m * 10 ^ e := mul_nonneg (Nat.cast_nonneg _) (zpow_nonneg (by norm_num) _)
      linarith
  wholeSeconds_le us := by
    obtain ⟨m, e, h, -, -, -, k, hk, he⟩ := make_spec (decide (us < 0)) us.natAbs (-6)
    have htotal : (PyMath.totalSeconds us : Decimal) = fin (decide (us < 0)) m e := h
    rw [PyMath.wholeSeconds, htotal]
    change (signed _ (if 0 ≤ e then m * 10 ^ e.toNat else m / 10 ^ (-e).toNat)).natAbs ≤ _
    have habs : ∀ (b : Bool) (n : ℕ), (signed b n).natAbs = n := by
      intro b n
      cases b <;> simp [signed]
    rw [habs]
    split_ifs with h0
    · by_cases hus : us.natAbs = 0
      · have hm : m = 0 := by
          rw [hus] at hk
          exact (Nat.mul_eq_zero.1 hk.symm).resolve_right (by positivity)
        rw [hm]
        omega
      · calc m * 10 ^ e.toNat ≤ m * 10 ^ k :=
              Nat.mul_le_mul_left m (Nat.pow_le_pow_right (by decide) (by rw [he hus]; omega))
          _ = us.natAbs := hk.symm
    · calc m / 10 ^ (-e).toNat ≤ m := Nat.div_le_self _ _
        _ ≤ m * 10 ^ k := Nat.le_mul_of_pos_right m (by positivity)
        _ = us.natAbs := hk.symm

end Decimal

end Lakehouse

import Lakehouse.Common.PyFloat
import Mathlib.Tactic.Linarith
import Mathlib.Tactic.NormNum
/-!
# Exact decimals

A lawful float: decimals `± m · 10 ^ e` in normal form, with no bound on
the digits. Sums, differences and products are exact and a quotient is
cut after forty places, so on numbers of few digits the operations are
those of doubles. What `repr` writes has no exponent.
-/

namespace Lakehouse

/-- **A decimal**, or one of the non-finite floats. -/
inductive Decimal where
  | nan
  | inf (neg : Bool)
  | fin (neg : Bool) (m : ℕ) (e : ℤ)
  deriving DecidableEq, Repr

namespace Decimal

/-- The significand has no trailing zero; that of zero stands at one. -/
def Normal (m : ℕ) (e : ℤ) : Prop := m % 10 ≠ 0 ∨ (m = 0 ∧ e = 0)

instance (m : ℕ) (e : ℤ) : Decidable (Normal m e) := by unfold Normal; infer_instance

/-- Trailing zeros moved into the exponent. -/
def strip : ℕ → ℕ → ℤ → ℕ × ℤ
  | 0, m, e => (m, e)
  | fuel + 1, m, e => if m % 10 = 0 then strip fuel (m / 10) (e + 1) else (m, e)

/-- The decimal of a significand and an exponent. -/
def make (neg : Bool) (m : ℕ) (e : ℤ) : Decimal :=
  if m = 0 then fin neg 0 0 else fin neg (strip m m e).1 (strip m m e).2

/-- A signed significand. -/
def signed (neg : Bool) (m : ℕ) : ℤ := if neg then -m else m

/-- The decimal of a signed significand. -/
def ofSigned (m e : ℤ) : Decimal := make (decide (m < 0)) m.natAbs e

/-- The two significands at the smaller exponent. -/
def align (m e m' e' : ℤ) : ℤ × ℤ :=
  (m * 10 ^ (e - min e e').toNat, m' * 10 ^ (e' - min e e').toNat)

/-- A comparison of the aligned significands. -/
def compare (r : ℤ → ℤ → Bool) : Decimal → Decimal → Bool
  | fin b m e, fin b' m' e' =>
    r (align (signed b m) e (signed b' m') e').1 (align (signed b m) e (signed b' m') e').2
  | _, _ => false

/-- An operation on the aligned significands. -/
def lift (f : ℤ → ℤ → ℤ) : Decimal → Decimal → Decimal
  | fin b m e, fin b' m' e' =>
    let (x, y) := align (signed b m) e (signed b' m') e'
    ofSigned (f x y) (min e e')
  | _, _ => nan

/-- The nearest multiple of a power of ten, ties to even. -/
def roundHalfEven (m k : ℕ) : ℕ :=
  let q := m / 10 ^ k
  let r := m % 10 ^ k
  if 2 * r < 10 ^ k then q
  else if 2 * r = 10 ^ k then q + q % 2
  else q + 1

/-- `k` digits, with leading zeros. -/
def padded (k n : ℕ) : Text := List.replicate (k - (Text.ofNat n).length) 0x30 ++ Text.ofNat n

/-- What `repr` writes of a magnitude: its integer part and its fraction. -/
def parts (m : ℕ) (e : ℤ) : Text × Text :=
  if 0 ≤ e then (Text.ofNat (m * 10 ^ e.toNat), [0x30])
  else (Text.ofNat (m / 10 ^ (-e).toNat), padded (-e).toNat (m % 10 ^ (-e).toNat))

/-- The numeral `repr` writes. -/
def numeral (neg : Bool) (m : ℕ) (e : ℤ) : Numeral := ⟨neg, (parts m e).1, some (parts m e).2, none⟩

instance : PyFloat Decimal where
  ofInt n := ofSigned n 0
  ofNumeral l := make l.neg (digitsValue l.digits) l.exponent
  nan := nan
  inf := inf
  eq := compare fun x y => decide (x = y)
  lt := compare fun x y => decide (x < y)
  abs
    | fin _ m e => fin false m e
    | inf _ => inf false
    | nan => nan
  add := lift (· + ·)
  sub := lift (· - ·)
  mul
    | fin b m e, fin b' m' e' => make (b != b') (m * m') (e + e')
    | _, _ => nan
  div
    | fin b m e, fin b' m' e' => make (b != b') (m * 10 ^ 40 / m') (e - e' - 40)
    | _, _ => nan
  trunc
    | fin b m e => signed b (if 0 ≤ e then m * 10 ^ e.toNat else m / 10 ^ (-e).toNat)
    | _ => 0
  round6
    | fin b m e => if -6 ≤ e then fin b m e else make b (roundHalfEven m (-e - 6).toNat) (-6)
    | x => x
  isFinite
    | fin _ m e => decide (Normal m e)
    | _ => false
  repr
    | nan => lit "nan"
    | inf neg => if neg then lit "-inf" else lit "inf"
    | fin neg m e => (numeral neg m e).text

/-- The rational a decimal is. -/
def toRat : Decimal → ℚ
  | fin b m e => signed b m * 10 ^ e
  | _ => 0

/-! ## The normal form -/

/-- Stripping divides by the powers of ten there are. -/
theorem strip_spec (fuel m : ℕ) (e : ℤ) (hm : 0 < m) (hf : m ≤ fuel) :
    (strip fuel m e).1 % 10 ≠ 0 ∧
      ∃ k : ℕ, m = (strip fuel m e).1 * 10 ^ k ∧ (strip fuel m e).2 = e + k := by
  induction fuel generalizing m e with
  | zero => omega
  | succ fuel ih =>
    rw [strip]
    split_ifs with h
    · obtain ⟨hmod, k, hk, he⟩ := ih (m / 10) (e + 1) (by omega) (by omega)
      refine ⟨hmod, k + 1, ?_, by rw [he]; push_cast; ring⟩
      calc m = m / 10 * 10 := by omega
        _ = _ := by conv_lhs => rw [hk]
                    rw [pow_succ, mul_assoc]
    · exact ⟨h, 0, by simp, by simp⟩

/-- The decimal made is normal and denotes what it was made of. -/
theorem make_spec (neg : Bool) (m : ℕ) (e : ℤ) : ∃ m' e', make neg m e = fin neg m' e' ∧
    Normal m' e' ∧ (m' : ℚ) * 10 ^ e' = m * 10 ^ e ∧ (m = 0 → m' = 0) ∧
      ∃ k : ℕ, m = m' * 10 ^ k ∧ (m ≠ 0 → e' = e + k) := by
  unfold make
  split_ifs with h
  · subst h
    exact ⟨0, 0, rfl, .inr ⟨rfl, rfl⟩, by simp, fun _ => rfl, 0, by simp, fun h => absurd rfl h⟩
  · obtain ⟨hmod, k, hk, he⟩ := strip_spec m m e (Nat.pos_of_ne_zero h) le_rfl
    refine ⟨_, _, rfl, .inl hmod, ?_, fun h₀ => absurd h₀ h, k, hk, fun _ => he⟩
    rw [he, zpow_add₀ (by norm_num), zpow_natCast]
    conv_rhs => rw [hk]
    push_cast
    ring

/-- A decimal that is made is finite. -/
theorem isFinite_make (neg : Bool) (m : ℕ) (e : ℤ) :
    PyFloat.isFinite (make neg m e) = true := by
  obtain ⟨m', e', h, hn, -⟩ := make_spec neg m e
  rw [h]
  exact decide_eq_true hn

/-- A decimal denotes the rational it was made of. -/
theorem toRat_make (neg : Bool) (m : ℕ) (e : ℤ) : toRat (make neg m e) = signed neg m * 10 ^ e := by
  obtain ⟨m', e', h, -, hv, -⟩ := make_spec neg m e
  rw [h, toRat]
  cases neg
  · simpa [signed] using hv
  · simpa [signed] using hv

/-- The exponent of a normal form is the largest there is. -/
theorem normal_le {m m' : ℕ} {e e' : ℤ} (hm : m % 10 ≠ 0) (hv : (m : ℚ) * 10 ^ e = m' * 10 ^ e') :
    e' ≤ e := by
  by_contra hlt
  obtain ⟨k, hk⟩ : ∃ k : ℕ, e' = e + (k + 1) := ⟨(e' - e - 1).toNat, by omega⟩
  have hpos : (10 : ℚ) ^ e ≠ 0 := zpow_ne_zero _ (by norm_num)
  have hq : (m : ℚ) = m' * 10 ^ (k + 1) := by
    rw [hk, zpow_add₀ (by norm_num)] at hv
    have hcast : (10 : ℚ) ^ ((k : ℤ) + 1) = 10 ^ (k + 1) := by
      rw [← zpow_natCast]
      push_cast
      rfl
    rw [hcast] at hv
    refine mul_right_cancel₀ hpos ?_
    rw [hv]
    ring
  have hnat : m = m' * 10 ^ (k + 1) := by exact_mod_cast hq
  rw [hnat, pow_succ, ← mul_assoc, Nat.mul_mod_left] at hm
  exact hm rfl

/-- **Normal forms of one value are one.** -/
theorem normal_ext {b b' : Bool} {m m' : ℕ} {e e' : ℤ} (h : Normal m e) (h' : Normal m' e')
    (h0 : toRat (fin b m e) ≠ 0) (hv : toRat (fin b m e) = toRat (fin b' m' e')) :
    fin b m e = fin b' m' e' := by
  have hpos : ∀ k : ℤ, (0 : ℚ) < 10 ^ k := fun k => zpow_pos (by norm_num) k
  have hnz : ∀ {b : Bool} {m : ℕ} {e : ℤ}, toRat (fin b m e) ≠ 0 → m ≠ 0 := by
    rintro b m e h rfl
    cases b <;> simp [toRat, signed] at h
  have hm := hnz h0
  have hm' := hnz (hv ▸ h0)
  have hmod : m % 10 ≠ 0 := h.resolve_right fun h => hm h.1
  have hmod' : m' % 10 ≠ 0 := h'.resolve_right fun h => hm' h.1
  have hposm : (0 : ℚ) < m * 10 ^ e := mul_pos (by exact_mod_cast Nat.pos_of_ne_zero hm) (hpos e)
  have hposm' : (0 : ℚ) < m' * 10 ^ e' :=
    mul_pos (by exact_mod_cast Nat.pos_of_ne_zero hm') (hpos e')
  obtain ⟨rfl, habs⟩ : b = b' ∧ (m : ℚ) * 10 ^ e = m' * 10 ^ e' := by
    cases b <;> cases b' <;> simp [toRat, signed] at hv
    · exact ⟨rfl, hv⟩
    · linarith
    · linarith
    · exact ⟨rfl, hv⟩
  obtain rfl : e = e' := le_antisymm (normal_le hmod' habs.symm) (normal_le hmod habs)
  have hmm : (m : ℚ) = m' := mul_right_cancel₀ (hpos e).ne' habs
  rw [show m = m' by exact_mod_cast hmm]

/-- A finite decimal is a normal one. -/
theorem isFinite_fin {x : Decimal} (h : PyFloat.isFinite x = true) :
    ∃ b m e, x = fin b m e ∧ Normal m e := by
  cases x with
  | nan | inf _ => cases h
  | fin b m e => exact ⟨b, m, e, rfl, of_decide_eq_true h⟩

/-! ## Comparison -/

/-- Two decimals at one exponent denote what they did. -/
theorem align_spec (m e m' e' : ℤ) :
    ((align m e m' e').1 : ℚ) * 10 ^ min e e' = m * 10 ^ e ∧
      ((align m e m' e').2 : ℚ) * 10 ^ min e e' = m' * 10 ^ e' := by
  have hstep : ∀ k : ℤ, min e e' ≤ k →
      (10 : ℚ) ^ (k - min e e').toNat * 10 ^ min e e' = 10 ^ k := by
    intro k hk
    rw [← zpow_natCast, ← zpow_add₀ (by norm_num), Int.toNat_of_nonneg (by omega)]
    congr 1
    omega
  unfold align
  push_cast
  rw [mul_assoc, mul_assoc, hstep e (min_le_left ..), hstep e' (min_le_right ..)]
  exact ⟨rfl, rfl⟩

/-- `==` compares the rationals. -/
theorem eq_iff_toRat {x y : Decimal} (hx : PyFloat.isFinite x = true)
    (hy : PyFloat.isFinite y = true) : PyFloat.eq x y = true ↔ toRat x = toRat y := by
  obtain ⟨b, m, e, rfl, -⟩ := isFinite_fin hx
  obtain ⟨b', m', e', rfl, -⟩ := isFinite_fin hy
  obtain ⟨h₁, h₂⟩ := align_spec (signed b m) e (signed b' m') e'
  rw [toRat, toRat, ← h₁, ← h₂, mul_left_inj' (zpow_ne_zero _ (by norm_num))]
  change decide _ = true ↔ _
  rw [decide_eq_true_eq, Int.cast_inj]

/-- `<` compares the rationals. -/
theorem lt_iff_toRat {x y : Decimal} (hx : PyFloat.isFinite x = true)
    (hy : PyFloat.isFinite y = true) : PyFloat.lt x y = true ↔ toRat x < toRat y := by
  obtain ⟨b, m, e, rfl, -⟩ := isFinite_fin hx
  obtain ⟨b', m', e', rfl, -⟩ := isFinite_fin hy
  obtain ⟨h₁, h₂⟩ := align_spec (signed b m) e (signed b' m') e'
  rw [toRat, toRat, ← h₁, ← h₂, mul_lt_mul_iff_left₀ (zpow_pos (by norm_num) _)]
  change decide _ = true ↔ _
  rw [decide_eq_true_eq, Int.cast_lt]

/-! ## `repr` -/

/-- A padded number is so many digits that denote it. -/
theorem padded_spec {k n : ℕ} (hk : 0 < k) (hn : n < 10 ^ k) :
    Numeral.Digits (padded k n) ∧ digitsValue (padded k n) = n ∧ (padded k n).length = k := by
  obtain ⟨hd, hv, -⟩ := Text.ofNat_spec n
  have hlen := Text.length_ofNat_le hk hn
  unfold padded
  refine ⟨⟨by simp [hd.1], fun c hc => ?_⟩, ?_, ?_⟩
  · rcases List.mem_append.1 hc with hc | hc
    · rw [List.eq_of_mem_replicate hc]
      decide
    · exact hd.2 c hc
  · rw [digitsValue_zeros_append, hv]
  · rw [List.length_append, List.length_replicate]
    omega

/-- A natural number is written as the integer part of a numeral. -/
theorem ofNat_int (n : ℕ) : Text.ofNat n = [0x30] ∨
    (Numeral.Digits (Text.ofNat n) ∧ (Text.ofNat n).head? ≠ some 0x30) := by
  obtain ⟨hd, -, hh⟩ := Text.ofNat_spec n
  rcases Nat.eq_zero_or_pos n with rfl | hn
  · exact .inl rfl
  · exact .inr ⟨hd, hh hn⟩

/-- **`repr` writes a numeral** that denotes the decimal. -/
theorem numeral_spec (b : Bool) (m : ℕ) (e : ℤ) : (numeral b m e).Wf ∧
    make b (digitsValue (numeral b m e).digits) (numeral b m e).exponent = make b m e := by
  have hmake : ∀ {n : ℕ} {f : ℤ}, (n : ℚ) * 10 ^ f = m * 10 ^ e → make b n f = make b m e := by
    intro n f h
    obtain ⟨m₁, e₁, h₁, hn₁, hv₁, hz₁, -⟩ := make_spec b n f
    obtain ⟨m₂, e₂, h₂, hn₂, hv₂, hz₂, -⟩ := make_spec b m e
    rw [h₁, h₂]
    have hpos : ∀ k : ℤ, (10 : ℚ) ^ k ≠ 0 := fun k => zpow_ne_zero _ (by norm_num)
    have hval : (m₁ : ℚ) * 10 ^ e₁ = m₂ * 10 ^ e₂ := by rw [hv₁, hv₂, h]
    by_cases h0 : m₁ = 0
    · subst h0
      have h0' : m₂ = 0 := by
        have hz : (m₂ : ℚ) * 10 ^ e₂ = 0 := by rw [← hval]; simp
        exact_mod_cast (mul_eq_zero.1 hz).resolve_right (hpos e₂)
      subst h0'
      rw [(hn₁.resolve_left (by decide)).2, (hn₂.resolve_left (by decide)).2]
    · have hrat : toRat (fin b m₁ e₁) = toRat (fin b m₂ e₂) := by
        cases b <;> simp [toRat, signed, hval]
      refine normal_ext hn₁ hn₂ ?_ hrat
      have h1 : (m₁ : ℚ) ≠ 0 := by exact_mod_cast h0
      cases b <;> simp [toRat, signed, h1, hpos]
  unfold numeral parts
  split_ifs with he
  · obtain ⟨-, hv, -⟩ := Text.ofNat_spec (m * 10 ^ e.toNat)
    refine ⟨⟨ofNat_int _, ?_, by simp⟩, hmake ?_⟩
    · rintro f hf
      cases hf
      exact ⟨by simp, fun c hc => by rw [List.mem_singleton.1 hc]; decide⟩
    · have hzero : digitsValue [0x30] = 0 := rfl
      simp only [Numeral.digits, Option.getD_some, Numeral.exponent, Numeral.expValue,
        digitsValue_append, hv, hzero, List.length_singleton]
      rw [← Int.toNat_of_nonneg he, zpow_natCast, Int.toNat_natCast]
      push_cast
      norm_num
      ring
  · set k := (-e).toNat with hk
    have hk0 : 0 < k := by omega
    obtain ⟨-, hv, -⟩ := Text.ofNat_spec (m / 10 ^ k)
    obtain ⟨hd, hv', hlen⟩ := padded_spec hk0 (Nat.mod_lt m (by positivity : 0 < 10 ^ k))
    refine ⟨⟨ofNat_int _, ?_, by simp⟩, hmake ?_⟩
    · rintro f hf
      cases hf
      exact hd
    · have hek : e = -(k : ℤ) := by omega
      simp only [Numeral.digits, Option.getD_some, Numeral.exponent, Numeral.expValue,
        digitsValue_append, hv, hv', hlen]
      rw [hek, zero_sub, Nat.div_add_mod']

/-- `repr` writes the numeral of a decimal. -/
theorem repr_fin (b : Bool) (m : ℕ) (e : ℤ) :
    PyFloat.repr (fin b m e) = (numeral b m e).text := rfl

/-- The text of a numeral without an exponent, after its sign. -/
theorem numeral_text (b : Bool) (m : ℕ) (e : ℤ) :
    (numeral b m e).text = (if b then [0x2D] else []) ++ (numeral false m e).text := by
  cases b <;> simp [numeral, Numeral.text]

/-- The absolute value of a finite decimal is finite. -/
theorem isFinite_abs {x : Decimal} (hx : PyFloat.isFinite x = true) :
    PyFloat.isFinite (PyFloat.abs x) = true := by
  obtain ⟨b, m, e, rfl, h⟩ := isFinite_fin hx
  exact decide_eq_true h

/-- The absolute value denotes that of the rational. -/
theorem toRat_abs {x : Decimal} (hx : PyFloat.isFinite x = true) :
    toRat (PyFloat.abs x) = |toRat x| := by
  obtain ⟨b, m, e, rfl, -⟩ := isFinite_fin hx
  have hpos : (0 : ℚ) ≤ m * 10 ^ e := mul_nonneg (Nat.cast_nonneg _) (zpow_nonneg (by norm_num) _)
  change toRat (fin false m e) = |toRat (fin b m e)|
  cases b
  · simp [toRat, signed, abs_of_nonneg hpos]
  · simp [toRat, signed, abs_of_nonneg hpos]

/-- But for zero, a finite decimal is the rational it denotes. -/
theorem ext_toRat {x y : Decimal} (hx : PyFloat.isFinite x = true) (hy : PyFloat.isFinite y = true)
    (h0 : toRat x ≠ 0) (hv : toRat x = toRat y) : x = y := by
  obtain ⟨b, m, e, rfl, h⟩ := isFinite_fin hx
  obtain ⟨b', m', e', rfl, h'⟩ := isFinite_fin hy
  exact normal_ext h h' h0 hv

/-- An integer is the decimal that denotes it. -/
theorem toRat_ofInt (n : ℤ) : toRat (PyFloat.ofInt n) = n := by
  change toRat (make (decide (n < 0)) n.natAbs 0) = n
  rw [toRat_make, zpow_zero, mul_one]
  congr 1
  unfold signed
  simp only [decide_eq_true_eq]
  split_ifs
  all_goals omega

/-- An integer numeral reads as its integer. -/
theorem ofNumeral_of_isInt {l : Numeral} (hi : l.isInt = true) (h0 : l.intValue ≠ 0) :
    (PyFloat.ofNumeral l : Decimal) = PyFloat.ofInt l.intValue := by
  obtain ⟨neg, int, frac, exp⟩ := l
  simp only [Numeral.isInt, Bool.and_eq_true, Option.isNone_iff_eq_none] at hi
  obtain ⟨rfl, rfl⟩ := hi
  change make neg (digitsValue (int ++ [])) (0 - 0) = make _ _ 0
  simp only [Numeral.intValue] at h0 ⊢
  rw [List.append_nil, sub_zero]
  cases neg
  · rfl
  · rw [if_pos rfl] at h0 ⊢
    congr 1
    · exact (decide_eq_true (by omega)).symm
    · omega

/-- A numeral that denotes zero reads as a zero. -/
theorem ofNumeral_of_value_zero {l : Numeral} (h0 : l.value = 0) :
    PyFloat.isFinite (PyFloat.ofNumeral l : Decimal) = true ∧
      toRat (PyFloat.ofNumeral l : Decimal) = 0 := by
  refine ⟨isFinite_make _ _ _, ?_⟩
  change toRat (make _ _ _) = 0
  rw [toRat_make]
  unfold Numeral.value at h0
  unfold signed
  split_ifs at h0 ⊢ <;> simpa using h0

/-- `repr` writes a positive decimal as a numeral with a fraction or an
exponent. -/
theorem repr_of_pos {x : Decimal} (hx : PyFloat.isFinite x = true) (hpos : 0 < toRat x) :
    ∃ l : Numeral, l.IsRepr ∧ PyFloat.repr x = l.text := by
  obtain ⟨b, m, e, rfl, h⟩ := isFinite_fin hx
  have hb : b = false := by
    cases b with
    | false => rfl
    | true =>
      have hneg : toRat (fin true m e) ≤ 0 := by
        simp only [toRat, signed, if_true]
        push_cast
        have hpos : (0 : ℚ) ≤ m * 10 ^ e :=
          mul_nonneg (Nat.cast_nonneg _) (zpow_nonneg (by norm_num) _)
        linarith
      exact absurd hpos (not_lt.2 hneg)
  subst hb
  exact ⟨numeral false m e, ⟨(numeral_spec false m e).1, rfl, rfl, nofun⟩, rfl⟩

/-- `repr` writes a minus in front of the absolute value. -/
theorem repr_of_neg {x : Decimal} (hx : PyFloat.isFinite x = true) (hneg : toRat x < 0) :
    PyFloat.repr x = 0x2D :: PyFloat.repr (PyFloat.abs x) := by
  obtain ⟨b, m, e, rfl, h⟩ := isFinite_fin hx
  have hb : b = true := by
    cases b with
    | true => rfl
    | false =>
      have hpos : 0 ≤ toRat (fin false m e) := by
        simp only [toRat, signed]
        exact mul_nonneg (by simp) (zpow_nonneg (by norm_num) _)
      exact absurd hneg (not_lt.2 hpos)
  subst hb
  exact numeral_text true m e

/-- `repr` writes either zero. -/
theorem repr_of_zero {x : Decimal} (hx : PyFloat.isFinite x = true) (h0 : toRat x = 0) :
    PyFloat.repr x = lit "0.0" ∨ PyFloat.repr x = lit "-0.0" := by
  obtain ⟨b, m, e, rfl, h⟩ := isFinite_fin hx
  have hm : m = 0 := by
    have hz : (m : ℚ) * 10 ^ e = 0 := by
      cases b <;> simpa [toRat, signed] using h0
    exact_mod_cast (mul_eq_zero.1 hz).resolve_right (zpow_ne_zero _ (by norm_num))
  subst hm
  obtain ⟨-, rfl⟩ := h.resolve_left (by decide)
  cases b
  · exact .inl rfl
  · exact .inr rfl

/-- What `repr` writes reads back. -/
theorem ofNumeral_of_repr {x : Decimal} {l : Numeral} (hx : PyFloat.isFinite x = true) (hl : l.Wf)
    (hrepr : PyFloat.repr x = l.text) : (PyFloat.ofNumeral l : Decimal) = x := by
  obtain ⟨b, m, e, rfl, h⟩ := isFinite_fin hx
  obtain ⟨hwf, hmake⟩ := numeral_spec b m e
  have hl₀ : l = numeral b m e := by
    have h₁ := scanNumeral_text hl numeralEnd_nil
    rw [← hrepr, repr_fin, scanNumeral_text hwf numeralEnd_nil] at h₁
    exact (Prod.mk.inj (Option.some.inj h₁)).1.symm
  subst hl₀
  change make b _ _ = fin b m e
  rw [hmake]
  obtain ⟨m', e', hm, hn, hv, hz, -⟩ := make_spec b m e
  rw [hm]
  by_cases h0 : m = 0
  · rw [hz h0, h0, (h.resolve_left (by rw [h0]; decide)).2]
    rw [hz h0] at hn
    rw [(hn.resolve_left (by decide)).2]
  · have h1 : (m : ℚ) ≠ 0 := by exact_mod_cast h0
    have h2 : (10 : ℚ) ^ e ≠ 0 := zpow_ne_zero _ (by norm_num)
    refine (normal_ext h hn ?_ ?_).symm
    · cases b <;> simp [toRat, signed, h1, h2]
    · cases b <;> simp [toRat, signed, hv]

/-- Numerals that denote one number read alike. -/
theorem ofNumeral_of_value {l l' : Numeral} (hv : l.value = l'.value) (h0 : l.value ≠ 0) :
    (PyFloat.ofNumeral l : Decimal) = PyFloat.ofNumeral l' := by
  have hval : ∀ l : Numeral, toRat (make l.neg (digitsValue l.digits) l.exponent) = l.value := by
    intro l
    rw [toRat_make, Numeral.value]
    unfold signed
    split_ifs <;> simp
  change make _ _ _ = make _ _ _
  obtain ⟨m, e, hm, hn, -⟩ := make_spec l.neg (digitsValue l.digits) l.exponent
  obtain ⟨m', e', hm', hn', -⟩ := make_spec l'.neg (digitsValue l'.digits) l'.exponent
  have h₁ := hval l
  have h₂ := hval l'
  rw [hm] at h₁ ⊢
  rw [hm'] at h₂ ⊢
  exact normal_ext hn hn' (by rw [h₁]; exact h0) (by rw [h₁, h₂, hv])

/-- A natural number is written with a zero fraction. -/
theorem repr_ofNat {n : ℕ} (hn : 0 < n) :
    PyFloat.repr (PyFloat.ofInt n : Decimal) = Text.ofNat n ++ lit ".0" := by
  obtain ⟨m', e', hm, -, -, -, k, hk, he⟩ := make_spec false n 0
  have hof : (PyFloat.ofInt n : Decimal) = fin false m' e' := by
    rw [← hm]
    change make (decide ((n : ℤ) < 0)) _ _ = _
    rw [show decide ((n : ℤ) < 0) = false by simp, Int.natAbs_natCast]
  have hek : e' = k := by rw [he hn.ne']; ring
  rw [hof, repr_fin, hek]
  unfold numeral parts
  rw [if_pos (by positivity), Int.toNat_natCast, ← hk]
  simp [Numeral.text, Numeral.fracText, Numeral.expText, lit]

instance : LawfulFloat Decimal where
  val := toRat
  eq_iff := eq_iff_toRat
  lt_iff := lt_iff_toRat
  finite_abs := isFinite_abs
  val_abs := toRat_abs
  ext := ext_toRat
  finite_ofInt := fun _ => isFinite_make _ _ _
  val_ofInt := fun _ => toRat_ofInt _
  ofNumeral_int := fun _ => ofNumeral_of_isInt
  ofNumeral_zero := ofNumeral_of_value_zero
  repr_shape := repr_of_pos
  repr_neg := repr_of_neg
  repr_zero := repr_of_zero
  ofNumeral_repr := ofNumeral_of_repr
  ofNumeral_congr := ofNumeral_of_value
  repr_ofInt := fun hn _ => repr_ofNat hn

end Decimal

end Lakehouse

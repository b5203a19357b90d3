import Lakehouse.Vessel.Trajectory
/-!
# Printed ordinates

`_format_ordinate` writes an ordinate with seven decimals and takes the
zeros, the point and the sign of a zero off again. What it writes is a
numeral, and the number it denotes is the ordinate rounded to seven
decimals (`formatOrdinate_spec`).
-/

namespace Lakehouse

namespace Vessel

open LawfulFloat (val)

/-- **Rounded to seven decimals**, half to even: `n` ten-millionths. -/
structure Rounds7 (q : ℚ) (n : ℤ) : Prop where
  near : |q * 10 ^ 7 - n| ≤ 1 / 2
  even : |q * 10 ^ 7 - n| = 1 / 2 → Even n

/-- **What the language documents of `f"{x:.7f}"`**: an integer part and seven
decimals, the rounded float under a sign. -/
class LawfulFixed (F : Type) [PyFloat F] [LawfulFloat F] [PyMath F] : Prop where
  fixed7_shape : ∀ {x : F}, PyFloat.isFinite x = true →
    ∃ (neg : Bool) (int f : Text) (n : ℤ), (⟨neg, int, some f, none⟩ : Numeral).Wf ∧ f.length = 7 ∧
      PyMath.fixed7 x = (⟨neg, int, some f, none⟩ : Numeral).text ∧ Rounds7 (val x) n ∧
      (⟨neg, int, some f, none⟩ : Numeral).value = n / 10 ^ 7

/-- A number of ten-millionths, as a numeral. A zero has no sign. -/
def tenMillionths (n : ℤ) : Numeral :=
  if n = 0 then ⟨false, [0x30], none, none⟩
  else ⟨decide (n < 0), Text.ofNat n.natAbs, none, some (.minus, lit "7")⟩

/-- **The printed ordinate**: the original rounded to seven decimals. -/
def Printed {F : Type} [PyFloat F] [LawfulFloat F] (x y : F) : Prop :=
  ∃ n : ℤ, Rounds7 (val x) n ∧ y = PyFloat.ofNumeral (tenMillionths n)

/-! ## The numeral -/

theorem value_tenMillionths {n : ℤ} (h : n ≠ 0) : (tenMillionths n).value = n / 10 ^ 7 := by
  have hexp : Numeral.expValue (some (.minus, lit "7")) = -7 := by decide
  have hv := (Text.ofNat_spec n.natAbs).2.1
  rw [tenMillionths, if_neg h]
  simp only [Numeral.value, Numeral.digits, Numeral.exponent, Option.getD_none, List.append_nil,
    List.length_nil, Nat.cast_zero, sub_zero, hexp, hv]
  rcases Int.lt_or_lt_of_ne h with hneg | hpos
  · have habs : ((n.natAbs : ℕ) : ℚ) = -n := by
      rw [Nat.cast_natAbs, abs_of_neg hneg, Int.cast_neg]
    rw [habs, if_pos (decide_eq_true hneg)]
    norm_num [zpow_neg, div_eq_mul_inv]
  · have habs : ((n.natAbs : ℕ) : ℚ) = n := by rw [Nat.cast_natAbs, abs_of_pos hpos]
    rw [habs, if_neg (by simp [hpos.le])]
    norm_num [zpow_neg, div_eq_mul_inv]

/-- Zeros at the end of the decimals do not count. -/
theorem value_strip (neg : Bool) (int : Text) {g : Text} (k : ℕ) {frac : Option Text}
    (hg : frac.getD [] = g) :
    (⟨neg, int, some (g ++ List.replicate k 0x30), none⟩ : Numeral).value =
      (⟨neg, int, frac, none⟩ : Numeral).value := by
  have hpow : (10 : ℚ) ^ k * 10 ^ (-(g.length : ℤ) - k) = 10 ^ (-(g.length : ℤ)) := by
    rw [← zpow_natCast, ← zpow_add₀ (by norm_num)]
    congr 1
    omega
  simp only [Numeral.value, Numeral.digits, Numeral.exponent, Option.getD_some, hg,
    Numeral.expValue, zero_sub, List.length_append, List.length_replicate, ← List.append_assoc,
    digitsValue_append_zeros, Nat.cast_mul, Nat.cast_add, Nat.cast_pow, Nat.cast_ofNat, neg_add]
  rw [mul_assoc (digitsValue (int ++ g) : ℚ), ← sub_eq_add_neg, hpow]

theorem value_eq_zero {l : Numeral} : l.value = 0 ↔ digitsValue l.digits = 0 := by
  rw [Numeral.value]
  have hsign : (if l.neg then (-1 : ℚ) else 1) ≠ 0 := by
    split_ifs
    all_goals norm_num
  have hpow : (10 : ℚ) ^ l.exponent ≠ 0 := zpow_ne_zero _ (by norm_num)
  rw [mul_eq_zero, mul_eq_zero, or_iff_right hsign, or_iff_left hpow, Nat.cast_eq_zero]

theorem digitsValue_int_ne_zero {int : Text} (hd : Numeral.Digits int) (hh : int.head? ≠ some 0x30) :
    digitsValue int ≠ 0 := fun h0 => by
  have htext := ofNat_digitsValue hd hh
  rw [h0] at htext
  exact hh (by rw [← htext]; rfl)

/-! ## Stripping -/

theorem rstripChar_append_replicate (c : ℕ) (t : Text) (k : ℕ) :
    Text.rstripChar c (t ++ List.replicate k c) = Text.rstripChar c t := by
  induction k with
  | zero => rw [List.replicate_zero, List.append_nil]
  | succ k ih => rw [List.replicate_succ', ← List.append_assoc, Text.rstripChar_append, ih]

/-- The zeros go as far as the point. -/
theorem rstripChar_zeros (a f : Text) :
    Text.rstripChar 0x30 (a ++ 0x2E :: f) = a ++ 0x2E :: Text.rstripChar 0x30 f := by
  have hlast : ∀ d ∈ (a ++ 0x2E :: Text.rstripChar 0x30 f).getLast?, d ≠ 0x30 := by
    intro d hd
    rw [List.getLast?_append_cons] at hd
    cases hg : Text.rstripChar 0x30 f with
    | nil =>
      rw [hg] at hd
      cases hd
      decide
    | cons b g =>
      rintro rfl
      rw [hg, List.getLast?_cons_cons] at hd
      exact Text.getLast?_rstripChar 0x30 f (by rw [hg]; exact hd)
  conv_lhs => rw [Text.eq_rstripChar_append 0x30 f, ← List.cons_append, ← List.append_assoc,
    rstripChar_append_replicate]
  exact Text.rstripChar_eq_self hlast

/-- The point goes where no decimal is left. -/
theorem rstripChar_point {a g : Text} (ha : ∀ d ∈ a.getLast?, isDigit d = true)
    (hg : ∀ d ∈ g, isDigit d = true) : Text.rstripChar 0x2E (a ++ 0x2E :: g) =
      if g = [] then a else a ++ 0x2E :: g := by
  have hdigit : ∀ {d : ℕ}, isDigit d = true → d ≠ 0x2E := by
    rintro d hd rfl
    cases hd
  split_ifs with hnil
  · rw [hnil, Text.rstripChar_append]
    exact Text.rstripChar_eq_self fun d hd => hdigit (ha d hd)
  · obtain ⟨b, g, rfl⟩ := List.exists_cons_of_ne_nil hnil
    refine Text.rstripChar_eq_self fun d hd => hdigit (hg d ?_)
    rw [List.getLast?_append_cons, List.getLast?_cons_cons] at hd
    exact List.mem_of_getLast? hd

/-! ## What is printed -/

variable {F : Type} [PyFloat F] [LawfulFloat F] [PyMath F] [LawfulFixed F]

/-- **What `_format_ordinate` writes** of a finite ordinate: a numeral without
an exponent, that reads as the ordinate rounded. -/
theorem formatOrdinate_spec {x : F} (hx : PyFloat.isFinite x = true) :
    ∃ l : Numeral, l.Wf ∧ l.exp = none ∧ formatOrdinate x = l.text ∧
      Printed x (PyFloat.ofNumeral l : F) := by
  obtain ⟨neg, int, f, n, hwf, -, htext, hn, hv⟩ := LawfulFixed.fixed7_shape hx
  have hint : Numeral.Digits int := hwf.digits_int
  have hf : Numeral.Digits f := hwf.frac f rfl
  have hzeros := Text.eq_rstripChar_append 0x30 f
  set g := Text.rstripChar 0x30 f with hg
  set a := (if neg then [0x2D] else []) ++ int with ha
  have hgdigits : ∀ d ∈ g, isDigit d = true := fun d hd =>
    hf.2 d (by rw [hzeros]; exact List.mem_append_left _ hd)
  have hadigits : ∀ d ∈ a.getLast?, isDigit d = true := fun d hd => by
    rw [ha, List.getLast?_append_of_ne_nil _ hint.1] at hd
    exact hint.2 d (List.mem_of_getLast? hd)
  have hstrip : Text.rstripChar 0x2E (Text.rstripChar 0x30 (PyMath.fixed7 x)) =
      if g = [] then a else a ++ 0x2E :: g := by
    have hshape : PyMath.fixed7 x = a ++ 0x2E :: f := by
      rw [htext, ha, Numeral.text, Numeral.fracText, Numeral.expText, List.append_nil,
        List.append_assoc]
    rw [hshape, rstripChar_zeros, ← hg, rstripChar_point hadigits hgdigits]
  -- the stripped numeral denotes what the whole one does
  have hstripped : ∀ {frac : Option Text}, frac.getD [] = g →
      (⟨neg, int, frac, none⟩ : Numeral).value = n / 10 ^ 7 := fun hfrac => by
    rw [← value_strip neg int (f.length - g.length) hfrac, ← hzeros, hv]
  have hprinted : ∀ {l : Numeral}, l.value = n / 10 ^ 7 → n ≠ 0 →
      Printed x (PyFloat.ofNumeral l : F) := fun {l} hl h0 => by
    have hne : (n : ℚ) / 10 ^ 7 ≠ 0 := div_ne_zero (Int.cast_ne_zero.2 h0) (by norm_num)
    exact ⟨n, hn, LawfulFloat.ofNumeral_congr (by rw [hl, value_tenMillionths h0]) (by rwa [hl])⟩
  unfold formatOrdinate
  dsimp only
  rw [hstrip]
  by_cases hnil : g = []
  · rw [if_pos hnil]
    have hvalue : (⟨neg, int, none, none⟩ : Numeral).value = n / 10 ^ 7 := hstripped hnil.symm
    have hane : a ≠ [] := List.append_ne_nil_of_right_ne_nil _ hint.1
    by_cases h0 : n = 0
    · -- a zero is written `0`, whatever its sign
      have hz : (⟨neg, int, none, none⟩ : Numeral).value = 0 := by rw [hvalue, h0]; simp
      have hzero : digitsValue (int ++ []) = 0 := value_eq_zero.1 hz
      rw [List.append_nil] at hzero
      have hint0 : int = [0x30] := hwf.int.resolve_right fun h => digitsValue_int_ne_zero h.1 h.2 hzero
      refine ⟨⟨false, [0x30], none, none⟩, ⟨.inl rfl, by simp, by simp⟩, rfl, ?_, n, hn, ?_⟩
      · rw [ha, hint0]
        cases neg
        all_goals rfl
      · rw [tenMillionths, if_pos h0]
    · refine ⟨⟨neg, int, none, none⟩, ⟨hwf.int, by simp, by simp⟩, rfl, ?_, hprinted hvalue h0⟩
      have hne : ¬(a = lit "-0" ∨ a = []) := by
        rintro (h | h)
        · have hint0 : int = [0x30] := by
            cases neg with
            | true => exact (List.cons.inj h).2
            | false =>
              have h' : int = lit "-0" := h
              have hc := hint.2 0x2D (by rw [h']; decide)
              cases hc
          have hz : (⟨neg, int, none, none⟩ : Numeral).value = 0 :=
            value_eq_zero.2 (by rw [Numeral.digits, hint0]; rfl)
          rw [hvalue, div_eq_zero_iff, Int.cast_eq_zero] at hz
          exact h0 (hz.resolve_right (by norm_num))
        · exact hane h
      rw [if_neg hne, ha, Numeral.text, Numeral.fracText, Numeral.expText, List.append_nil,
        List.append_nil]
  · rw [if_neg hnil]
    have hvalue : (⟨neg, int, some g, none⟩ : Numeral).value = n / 10 ^ 7 := hstripped rfl
    have hgd : Numeral.Digits g := ⟨hnil, hgdigits⟩
    have h0 : n ≠ 0 := by
      rintro rfl
      have hz : (⟨neg, int, some g, none⟩ : Numeral).value = 0 := by rw [hvalue]; simp
      have hzero : digitsValue (int ++ g) = 0 := value_eq_zero.1 hz
      rw [digitsValue_append] at hzero
      have hmod := digitsValue_mod_ten hgd (Text.getLast?_rstripChar 0x30 f)
      omega
    have hwf' : (⟨neg, int, some g, none⟩ : Numeral).Wf :=
      ⟨hwf.int, fun f' hf' => by cases hf'; exact hgd, by simp⟩
    refine ⟨⟨neg, int, some g, none⟩, hwf', rfl, ?_, hprinted hvalue h0⟩
    have hpoint : 0x2E ∈ a ++ 0x2E :: g := List.mem_append_right _ List.mem_cons_self
    have hne : ¬(a ++ 0x2E :: g = lit "-0" ∨ a ++ 0x2E :: g = []) := by
      rintro (h | h)
      · rw [h] at hpoint
        exact absurd hpoint (by decide)
      · rw [h] at hpoint
        cases hpoint
    rw [if_neg hne, ha, Numeral.text, Numeral.fracText, Numeral.expText, List.append_nil,
      List.append_assoc]

/-! ## Decimals -/

section Decimals

open Decimal

/-- A multiple of the power of ten nearest by, an even one where two are. -/
theorem roundHalfEven_spec (m k : ℕ) :
    2 * |(m : ℤ) - roundHalfEven m k * 10 ^ k| ≤ 10 ^ k ∧
      (2 * |(m : ℤ) - roundHalfEven m k * 10 ^ k| = 10 ^ k → Even (roundHalfEven m k)) := by
  have hdiv : (m : ℤ) = (m / 10 ^ k : ℕ) * 10 ^ k + (m % 10 ^ k : ℕ) := by
    exact_mod_cast (Nat.div_add_mod' m (10 ^ k)).symm
  have hlt : m % 10 ^ k < 10 ^ k := Nat.mod_lt m (by positivity)
  have hcast : ((10 ^ k : ℕ) : ℤ) = 10 ^ k := by push_cast; rfl
  -- how far the two multiples about it are
  have hbelow : |(m : ℤ) - (m / 10 ^ k : ℕ) * 10 ^ k| = (m % 10 ^ k : ℕ) := by
    rw [hdiv.trans (add_comm _ _), add_sub_cancel_right, Nat.abs_cast]
  have habove : |(m : ℤ) - (m / 10 ^ k + 1 : ℕ) * 10 ^ k| = 10 ^ k - (m % 10 ^ k : ℕ) := by
    have hneg : (m : ℤ) - (m / 10 ^ k + 1 : ℕ) * 10 ^ k = -(10 ^ k - (m % 10 ^ k : ℕ)) := by
      rw [Nat.cast_add, Nat.cast_one]
      linarith
    rw [hneg, abs_neg, abs_of_nonneg (by omega)]
  unfold roundHalfEven
  simp only
  split_ifs with hless htie
  · rw [hbelow]
    omega
  · rcases Nat.mod_two_eq_zero_or_one (m / 10 ^ k) with heven | hodd
    · rw [heven, Nat.add_zero, hbelow]
      exact ⟨by omega, fun _ => Nat.even_iff.2 heven⟩
    · rw [hodd, habove]
      exact ⟨by omega, fun _ => Nat.even_iff.2 (by omega)⟩
  · rw [habove]
    omega

/-- **A magnitude is scaled to the nearest unit**, half to even. -/
theorem scaled_spec (k m : ℕ) (e : ℤ) :
    |(m : ℚ) * 10 ^ e * 10 ^ k - scaled k m e| ≤ 1 / 2 ∧
      (|(m : ℚ) * 10 ^ e * 10 ^ k - scaled k m e| = 1 / 2 → Even (scaled k m e)) := by
  have hshift : (m : ℚ) * 10 ^ e * 10 ^ k = m * 10 ^ (e + k) := by
    rw [zpow_add₀ (by norm_num), zpow_natCast, mul_assoc]
  rw [hshift]
  unfold scaled
  split_ifs with he
  · obtain ⟨j, hj⟩ : ∃ j : ℕ, e + k = j := ⟨(e + k).toNat, by omega⟩
    rw [hj, zpow_natCast, Int.toNat_natCast, Nat.cast_mul, Nat.cast_pow, Nat.cast_ofNat, sub_self,
      abs_zero]
    norm_num
  · obtain ⟨j, hj⟩ : ∃ j : ℕ, e + k = -j := ⟨(-e - k).toNat, by omega⟩
    have hj' : (-e - k).toNat = j := by omega
    have hpos : (0 : ℚ) < 10 ^ j := by positivity
    have hdist : |(m : ℚ) * 10 ^ (e + k) - roundHalfEven m j| =
        ((|(m : ℤ) - roundHalfEven m j * 10 ^ j| : ℤ) : ℚ) / 10 ^ j := by
      rw [hj, zpow_neg, zpow_natCast, ← div_eq_mul_inv, eq_div_iff hpos.ne', ← abs_of_pos hpos,
        ← abs_mul, abs_of_pos hpos, sub_mul, div_mul_cancel₀ _ hpos.ne']
      push_cast
      rfl
    obtain ⟨hnear, heven⟩ := roundHalfEven_spec m j
    rw [hj', hdist]
    refine ⟨?_, fun h => heven ?_⟩
    · rw [div_le_div_iff₀ hpos two_pos, one_mul, mul_comm]
      exact_mod_cast hnear
    · rw [div_eq_div_iff hpos.ne' two_ne_zero, one_mul, mul_comm] at h
      exact_mod_cast h

/-- The sign goes with what is rounded. -/
theorem rounds7_signed (b : Bool) (m : ℕ) (e : ℤ) :
    Rounds7 (toRat (fin b m e)) (signed b (scaled 7 m e)) := by
  obtain ⟨hnear, heven⟩ := scaled_spec 7 m e
  have hdist : |toRat (fin b m e) * 10 ^ 7 - signed b (scaled 7 m e)| =
      |(m : ℚ) * 10 ^ e * 10 ^ 7 - scaled 7 m e| := by
    cases b with
    | false => rfl
    | true =>
      simp only [toRat, signed, if_true, Int.cast_neg, Int.cast_natCast]
      rw [← abs_neg]
      ring_nf
  rw [← hdist] at hnear heven
  refine ⟨hnear, fun h => ?_⟩
  have hscaled : Even ((scaled 7 m e : ℕ) : ℤ) := (Int.even_coe_nat _).2 (heven h)
  cases b with
  | false => exact hscaled
  | true => exact hscaled.neg

instance : LawfulFixed Decimal where
  fixed7_shape := by
    intro x hx
    obtain ⟨b, m, e, rfl, -⟩ := isFinite_fin hx
    have hlt : scaled 7 m e % 10 ^ 7 < 10 ^ 7 := Nat.mod_lt _ (by norm_num)
    obtain ⟨hdigits, hvalue, hlen⟩ := padded_spec (by norm_num) hlt
    refine ⟨b, Text.ofNat (scaled 7 m e / 10 ^ 7), padded 7 (scaled 7 m e % 10 ^ 7),
      signed b (scaled 7 m e), ⟨ofNat_int _, ?_, nofun⟩, hlen, ?_, rounds7_signed b m e, ?_⟩
    · rintro f hf
      cases hf
      exact hdigits
    · rw [Numeral.text, Numeral.fracText, Numeral.expText, List.append_nil, ← List.append_assoc]
      rfl
    · have hint := (Text.ofNat_spec (scaled 7 m e / 10 ^ 7)).2.1
      simp only [Numeral.value, Numeral.digits, Numeral.exponent, Numeral.expValue,
        Option.getD_some, digitsValue_append, hint, hvalue, hlen, Nat.div_add_mod', zero_sub]
      rw [zpow_neg, ← div_eq_mul_inv, Nat.cast_ofNat, ← mul_div_assoc]
      congr 1
      cases b
      · simp [signed]
      · simp [signed]

end Decimals

end Vessel

end Lakehouse

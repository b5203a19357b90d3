import Lakehouse.Common.Quantile
import Lakehouse.PortStatistics.Permutation
/-!
# The quantiles of a run

Over exact rationals `percentile_linear` is the quantile of type 7: it
reads no item out of range, lies between the least and the greatest value,
does not depend on their order, and grows with the probability and with
every value. Rounding keeps the order, so a P50 figure is no greater than
the P90 figure of the same values (`percentileLinear_type7`).
-/

namespace Lakehouse

namespace PortStatistics

open Arithmetic Quantile

variable {values values' : List ℚ} {quantile quantile' : ℚ}

theorem sorted_eq (values : List ℚ) : sorted values = values.insertionSort (· ≤ ·) := by
  have hrel : (fun x y : ℚ => lt y x = false) = (· ≤ ·) := by
    funext x y
    simp [lt]
  have hperm : (sorted values).Perm (values.insertionSort (· ≤ ·)) :=
    (List.perm_insertionSort _ values).trans (List.perm_insertionSort _ values).symm
  have htotal : Std.Total fun x y : ℚ => lt y x = false := by
    rw [hrel]
    infer_instance
  have htrans : IsTrans ℚ fun x y : ℚ => lt y x = false := by
    rw [hrel]
    infer_instance
  have hsorted : (sorted values).Pairwise (· ≤ ·) := by
    rw [← hrel]
    exact List.pairwise_insertionSort _ values
  exact List.Perm.eq_of_pairwise (fun _ _ _ _ => le_antisymm) hsorted
    (List.pairwise_insertionSort _ values) hperm

/-- An item whose number is in range. -/
theorem itemAt_nth {items : List ℚ} {k : ℕ} (h : k < items.length) :
    itemAt items (k : ℤ) = .ok (nth items k) := by
  unfold itemAt
  rw [if_neg (by omega)]
  simp only
  rw [if_neg (by omega), Int.toNat_natCast, List.getElem?_eq_getElem h, nth_eq_getD h,
    List.getD_eq_getElem _ _ h]

/-- The place of a quantile among the items. -/
def rank (values : List ℚ) (quantile : ℚ) : ℚ := mul quantile (ofInt (values.length - 1))

theorem rank_eq (values : List ℚ) (quantile : ℚ) :
    rank values quantile = ((values.length : ℚ) - 1) * quantile := by
  rw [rank, mul_comm]
  simp [mul, ofInt]

theorem rank_nonneg (h : values ≠ []) (h0 : 0 < quantile) : 0 ≤ rank values quantile := by
  rw [rank_eq]
  exact mul_nonneg (last_nonneg h) h0.le

/-- **The items read are in range**, counted from the front. -/
theorem trunc_rank (h : values ≠ []) (h0 : 0 < quantile) (h1 : quantile < 1) :
    trunc (rank values quantile) = (⌊rank values quantile⌋₊ : ℤ) ∧
      ⌊rank values quantile⌋₊ < values.length := by
  have hrank := rank_nonneg h h0
  have hpos := List.length_pos_of_ne_nil h
  have htrunc : trunc (rank values quantile) = ⌊rank values quantile⌋ := if_pos hrank
  have hle : rank values quantile ≤ ((values.length - 1 : ℕ) : ℚ) := by
    rw [rank_eq, Nat.cast_sub hpos, Nat.cast_one]
    exact mul_le_of_le_one_right (last_nonneg h) h1.le
  have hfloor := Nat.floor_le_of_le hle
  exact ⟨htrunc.trans (Int.natCast_floor_eq_floor hrank).symm, by omega⟩

/-- **What is read lies on the line between two order statistics.** -/
theorem interpolate_eq (h : values ≠ []) (h0 : 0 < quantile) (h1 : quantile < 1) :
    interpolate values quantile = .ok (lerp (nth values) (rank values quantile)) := by
  obtain ⟨htrunc, hlower⟩ := trunc_rank h h0 h1
  obtain ⟨k, hk⟩ : ∃ k, k = ⌊rank values quantile⌋₊ := ⟨_, rfl⟩
  rw [← hk] at htrunc hlower
  have hupper : min ((k : ℤ) + 1) ((values.length : ℤ) - 1) =
      ((min (k + 1) (values.length - 1) : ℕ) : ℤ) := by omega
  have hlast : nth values (min (k + 1) (values.length - 1)) = nth values (k + 1) := by
    rw [nth, nth, min_assoc, min_self]
  have hsteps : interpolate values quantile = (do
      let low ← itemAt values (trunc (rank values quantile))
      let high ← itemAt values (min (trunc (rank values quantile) + 1) ((values.length : ℤ) - 1))
      return add low (mul (sub (rank values quantile) (ofInt (trunc (rank values quantile))))
        (sub high low))) := rfl
  rw [hsteps, htrunc, itemAt_nth hlower, ok_bind, hupper, itemAt_nth (by omega), ok_bind, hlast,
    lerp, ← hk]
  rfl

/-- **`percentile_linear` is the quantile of type 7.** -/
theorem percentileLinear_eq (h : values ≠ []) (h0 : 0 < quantile) (h1 : quantile < 1) :
    percentileLinear values quantile = .ok (type7 values quantile) := by
  have hempty : ¬values.isEmpty = true := by simpa using h
  have hquantile : ¬(lt (ofInt 0) quantile && lt quantile (ofInt 1)) = false := by
    simp [lt, ofInt, h0, h1]
  have hlen : (sorted values).length = values.length := List.length_insertionSort _ _
  have hne : sorted values ≠ [] := List.ne_nil_of_length_pos (hlen ▸ List.length_pos_of_ne_nil h)
  have hline : type7 values quantile = lerp (nth (sorted values)) (rank (sorted values) quantile) := by
    rw [type7_eq_lerp h h0.le h1.le, rank_eq, hlen, sorted_eq]
  unfold percentileLinear
  rw [if_neg hempty, if_neg hquantile, hline]
  split
  · rename_i x hx
    have hzero : rank [x] quantile = 0 := by simp [rank_eq]
    rw [hx, hzero, lerp, Nat.floor_zero, Nat.cast_zero, sub_zero, zero_mul, add_zero]
    rfl
  · exact interpolate_eq hne h0 h1

/-! ## Figures -/

/-- **Rounding keeps the order.** -/
theorem roundRat_mono {p q : ℚ} (h : p ≤ q) : roundRat p ≤ roundRat q := by
  have hparity : ∀ n : ℤ, 0 ≤ n % 2 ∧ n % 2 ≤ 1 := fun n => by omega
  obtain ⟨s, hs⟩ : ∃ s, s = p * 10 ^ 6 := ⟨_, rfl⟩
  obtain ⟨t, ht⟩ : ∃ t, t = q * 10 ^ 6 := ⟨_, rfl⟩
  have hst : s ≤ t := by
    rw [hs, ht]
    exact mul_le_mul_of_nonneg_right h (by norm_num)
  rw [roundRat, roundRat, ← hs, ← ht]
  refine div_le_div_of_nonneg_right ?_ (by norm_num)
  rw [Int.cast_le]
  obtain heq | hlt := (Int.floor_le_floor hst).eq_or_lt
  · -- within one unit the greater remainder is rounded up no later
    rw [heq]
    have hrest : s - ⌊t⌋ ≤ t - ⌊t⌋ := sub_le_sub_right hst _
    have hbound := hparity ⌊t⌋
    split_ifs
    all_goals first | omega | linarith
  · have hbound := hparity ⌊s⌋
    have hbound' := hparity ⌊t⌋
    split_ifs <;> omega

/-- The figure of a percentile. -/
theorem quantileFigure_eq (h : values ≠ []) :
    quantileFigure (some p50) values = .ok (roundRat (type7 values (1 / 2))) ∧
      quantileFigure (some p90) values = .ok (roundRat (type7 values (9 / 10))) := by
  have hdistinct : ¬(some p90 : Option Text) = some p50 := by decide
  rw [quantileFigure, quantileFigure, if_pos rfl, if_neg hdistinct, half_eq, nineTenths_eq,
    percentileLinear_eq h (by norm_num) (by norm_num), percentileLinear_eq h (by norm_num) (by norm_num)]
  exact ⟨rfl, rfl⟩

/-- **A P50 figure is no greater than the P90 figure** of the same values. -/
theorem p50_le_p90 (h : values ≠ []) {x y : ℚ} (hx : quantileFigure (some p50) values = .ok x)
    (hy : quantileFigure (some p90) values = .ok y) : x ≤ y := by
  obtain ⟨hp50, hp90⟩ := quantileFigure_eq h
  obtain rfl := Except.ok.inj (hp50.symm.trans hx)
  obtain rfl := Except.ok.inj (hp90.symm.trans hy)
  exact roundRat_mono (type7_mono h (by norm_num) (by norm_num) (by norm_num))

/-- **The quantiles of a run are of type 7**, with what follows from it. -/
theorem percentileLinear_type7 (h : values ≠ []) (h0 : 0 < quantile) (h1 : quantile < 1) :
    (0 ≤ trunc (rank values quantile) ∧ trunc (rank values quantile) < values.length) ∧
    percentileLinear values quantile = .ok (type7 values quantile) ∧
    (∃ low ∈ values, ∃ high ∈ values, (∀ x ∈ values, low ≤ x ∧ x ≤ high) ∧
      low ≤ type7 values quantile ∧ type7 values quantile ≤ high) ∧
    (∀ values', values.Perm values' →
      percentileLinear values' quantile = percentileLinear values quantile) ∧
    (∀ quantile' < 1, quantile ≤ quantile' → ∀ x y, percentileLinear values quantile = .ok x →
      percentileLinear values quantile' = .ok y → x ≤ y) ∧
    (∀ values', List.Forall₂ (· ≤ ·) values values' → ∀ x y,
      percentileLinear values quantile = .ok x → percentileLinear values' quantile = .ok y → x ≤ y) ∧
    ∀ x y, quantileFigure (some p50) values = .ok x → quantileFigure (some p90) values = .ok y →
      x ≤ y := by
  have hquantile := percentileLinear_eq h h0 h1
  obtain ⟨htrunc, hlower⟩ := trunc_rank h h0 h1
  refine ⟨by omega, hquantile, type7_mem h h0.le h1.le, fun values' hperm => ?_, ?_, ?_, ?_⟩
  · exact percentileLinear_perm hperm.symm
  · intro quantile' h1' hle x y hx hy
    rw [hquantile] at hx
    rw [percentileLinear_eq h (h0.trans_le hle) h1'] at hy
    cases hx
    cases hy
    exact type7_mono h h0.le hle h1'.le
  · intro values' hvalues x y hx hy
    have h' : values' ≠ [] := by
      rintro rfl
      exact h (List.forall₂_nil_right_iff.1 hvalues)
    rw [hquantile] at hx
    rw [percentileLinear_eq h' h0 h1] at hy
    cases hx
    cases hy
    exact type7_le_type7 h hvalues h0.le h1.le
  · exact fun x y hx hy => p50_le_p90 h hx hy

theorem percentileLinear_type7_median :
    percentileLinear [4, 1, 3, (2 : ℚ)] (1 / 2) = .ok (type7 [4, 1, 3, 2] (1 / 2)) :=
  (percentileLinear_type7 (by decide) (by norm_num) (by norm_num)).2.1

end PortStatistics

end Lakehouse

import Lakehouse.Common.Sort
import Mathlib.Algebra.Order.Floor.Semiring
import Mathlib.Algebra.Order.Field.Basic
import Mathlib.Data.List.GetD
import Mathlib.Tactic.Linarith
import Mathlib.Tactic.Ring
/-!
# Quantiles

Quantiles of type 7, in the numbering of Hyndman and Fan: the order
statistics of a list, joined by straight lines. They lie between the least
and the greatest item, do not depend on the order of the items, and grow
with the probability and with every item.
-/

namespace Lakehouse

/-! ## Sorted lists, item by item -/

section Sorted

variable {α : Type} [LinearOrder α]

/-- What is inserted in two sorted lists keeps their order. -/
theorem orderedInsert_forall₂_le {l l' : List α} (h : List.Forall₂ (· ≤ ·) l l')
    (hl : l.Pairwise (· ≤ ·)) (hl' : l'.Pairwise (· ≤ ·)) {a a' : α} (ha : a ≤ a') :
    List.Forall₂ (· ≤ ·) (l.orderedInsert (· ≤ ·) a) (l'.orderedInsert (· ≤ ·) a') := by
  induction h generalizing a a' with
  | nil => exact .cons ha .nil
  | @cons b b' l l' hb h ih =>
    obtain ⟨hfirst, hl⟩ := List.pairwise_cons.1 hl
    obtain ⟨hfirst', hl'⟩ := List.pairwise_cons.1 hl'
    have hself : ∀ {c : α} {m : List α}, (∀ d ∈ m, c ≤ d) → m.orderedInsert (· ≤ ·) c = c :: m := by
      intro c m hm
      have hkey : ∀ d ∈ m, id c ≤ id d := hm
      exact orderedInsert_of_forall_le hkey
    rw [List.orderedInsert, List.orderedInsert]
    split_ifs with hab hab' hab'
    · exact .cons ha (.cons hb h)
    · refine .cons (hab.trans hb) ?_
      rw [← hself hfirst]
      exact ih hl hl' (hb.trans (le_of_not_ge hab'))
    · refine .cons ((le_of_not_ge hab).trans ha) ?_
      rw [← hself hfirst']
      exact ih hl hl' (ha.trans hab')
    · exact .cons hb (ih hl hl' ha)

/-- **Sorting keeps the order of lists.** -/
theorem insertionSort_forall₂_le {l l' : List α} (h : List.Forall₂ (· ≤ ·) l l') :
    List.Forall₂ (· ≤ ·) (l.insertionSort (· ≤ ·)) (l'.insertionSort (· ≤ ·)) := by
  induction h with
  | nil => exact .nil
  | cons ha _ ih =>
    exact orderedInsert_forall₂_le ih (List.pairwise_insertionSort _ _)
      (List.pairwise_insertionSort _ _) ha

end Sorted

namespace Quantile

/-! ## Order statistics -/

section OrderStatistics

variable {α : Type} [LinearOrder α] [Zero α]

/-- The items of a sorted list, the last one beyond its end. -/
def nth (l : List α) (k : ℕ) : α := l.getD (min k (l.length - 1)) 0

omit [LinearOrder α] in
/-- The item at a place within the list. -/
theorem nth_eq_getD {l : List α} {k : ℕ} (h : k < l.length) : nth l k = l.getD k 0 := by
  rw [nth, min_eq_left (by omega)]

/-- The items of a sorted list grow with their places. -/
theorem monotone_nth {l : List α} (h : l.Pairwise (· ≤ ·)) : Monotone (nth l) := by
  intro i j hij
  obtain rfl | hne := eq_or_ne l []
  · exact le_rfl
  · have hlen := List.length_pos_of_ne_nil hne
    have hi : min i (l.length - 1) < l.length := by omega
    have hj : min j (l.length - 1) < l.length := by omega
    rw [nth, nth, List.getD_eq_getElem _ _ hi, List.getD_eq_getElem _ _ hj]
    obtain heq | hlt := (min_le_min_right (l.length - 1) hij).eq_or_lt
    · simp only [heq, le_refl]
    · exact List.pairwise_iff_getElem.1 h _ _ hi hj hlt

/-- A list that is greater throughout is greater at each place. -/
theorem nth_le_nth {l l' : List α} (h : List.Forall₂ (· ≤ ·) l l') (k : ℕ) : nth l k ≤ nth l' k := by
  have hget : ∀ i, l.getD i 0 ≤ l'.getD i 0 := by
    induction h with
    | nil => exact fun _ => le_rfl
    | cons hab _ ih =>
      intro i
      cases i with
      | zero => exact hab
      | succ i => exact ih i
  rw [nth, nth, h.length_eq]
  exact hget _

omit [LinearOrder α] in
/-- An item at any place is in the list. -/
theorem nth_mem {l : List α} (h : l ≠ []) (k : ℕ) : nth l k ∈ l := by
  have hlen := List.length_pos_of_ne_nil h
  rw [nth, List.getD_eq_getElem _ _ (by omega : min k (l.length - 1) < l.length)]
  exact List.getElem_mem _

/-- No item of a sorted list is less than the first, and none greater than
the last. -/
theorem nth_bounds {l : List α} (h : l.Pairwise (· ≤ ·)) {a : α} (ha : a ∈ l) :
    nth l 0 ≤ a ∧ a ≤ nth l (l.length - 1) := by
  obtain ⟨i, hi, rfl⟩ := List.getElem_of_mem ha
  have heq : l[i] = nth l i := by
    rw [nth_eq_getD hi, List.getD_eq_getElem _ _ hi]
  rw [heq]
  exact ⟨monotone_nth h (Nat.zero_le i), monotone_nth h (by omega)⟩

end OrderStatistics

variable {α : Type} [Field α] [LinearOrder α] [IsStrictOrderedRing α] [FloorSemiring α]

/-! ## Straight lines between the members of a sequence -/

/-- **A sequence, continued by straight lines.** -/
def lerp (x : ℕ → α) (t : α) : α := x ⌊t⌋₊ + (t - ⌊t⌋₊) * (x (⌊t⌋₊ + 1) - x ⌊t⌋₊)

variable {x y : ℕ → α} {s t : α}

/-- An interpolated value is between its neighbours. -/
theorem lerp_mem (hx : Monotone x) (ht : 0 ≤ t) : x ⌊t⌋₊ ≤ lerp x t ∧ lerp x t ≤ x (⌊t⌋₊ + 1) := by
  have hstep : 0 ≤ x (⌊t⌋₊ + 1) - x ⌊t⌋₊ := sub_nonneg.2 (hx (Nat.le_succ _))
  have hlow : 0 ≤ t - ⌊t⌋₊ := sub_nonneg.2 (Nat.floor_le ht)
  have hhigh : t - ⌊t⌋₊ ≤ 1 := by
    have := Nat.lt_floor_add_one t
    linarith
  constructor
  · exact le_add_of_nonneg_right (mul_nonneg hlow hstep)
  · have := mul_le_of_le_one_left hstep hhigh
    rw [lerp]
    linarith

/-- **It grows where the sequence does.** -/
theorem lerp_mono (hx : Monotone x) (hs : 0 ≤ s) (hst : s ≤ t) : lerp x s ≤ lerp x t := by
  obtain heq | hlt := (Nat.floor_le_floor hst).eq_or_lt
  · have hstep : 0 ≤ x (⌊t⌋₊ + 1) - x ⌊t⌋₊ := sub_nonneg.2 (hx (Nat.le_succ _))
    have hmul := mul_le_mul_of_nonneg_right (sub_le_sub_right hst (⌊t⌋₊ : α)) hstep
    rw [lerp, lerp, heq]
    linarith
  · calc lerp x s ≤ x (⌊s⌋₊ + 1) := (lerp_mem hx hs).2
      _ ≤ x ⌊t⌋₊ := hx hlt
      _ ≤ lerp x t := (lerp_mem hx (hs.trans hst)).1

/-- It grows with the sequence. -/
theorem lerp_le_lerp (h : ∀ k, x k ≤ y k) (ht : 0 ≤ t) : lerp x t ≤ lerp y t := by
  have hlow : 0 ≤ t - ⌊t⌋₊ := sub_nonneg.2 (Nat.floor_le ht)
  have hhigh : 0 ≤ 1 - (t - ⌊t⌋₊) := by
    have := Nat.lt_floor_add_one t
    linarith
  have hfirst := mul_le_mul_of_nonneg_left (h ⌊t⌋₊) hhigh
  have hsecond := mul_le_mul_of_nonneg_left (h (⌊t⌋₊ + 1)) hlow
  rw [lerp, lerp]
  linarith

/-! ## Type 7 -/

/-- **The quantile of type 7**: with `h = (n - 1) p + 1` and `j = ⌊h⌋`, the
order statistics `x_j` and `x_{j+1}` in the proportion of `1 - (h - j)` to
`h - j`. -/
def type7 (l : List α) (p : α) : α :=
  let x := l.insertionSort (· ≤ ·)
  let h := ((l.length : α) - 1) * p + 1
  let j := ⌊h⌋₊
  (1 - (h - j)) * x.getD (j - 1) 0 + (h - j) * x.getD j 0

variable {l l' : List α} {p q : α}

omit [FloorSemiring α] in
/-- The last place is not negative. -/
theorem last_nonneg (hl : l ≠ []) : 0 ≤ (l.length : α) - 1 := by
  rw [sub_nonneg, Nat.one_le_cast]
  exact List.length_pos_of_ne_nil hl

/-- **It lies on the lines between the order statistics.** -/
theorem type7_eq_lerp (hl : l ≠ []) (h0 : 0 ≤ p) (h1 : p ≤ 1) :
    type7 l p = lerp (nth (l.insertionSort (· ≤ ·))) (((l.length : α) - 1) * p) := by
  have hpos := List.length_pos_of_ne_nil hl
  have hlast := last_nonneg hl
  obtain ⟨t, ht⟩ : ∃ t, t = ((l.length : α) - 1) * p := ⟨_, rfl⟩
  have ht0 : 0 ≤ t := ht ▸ mul_nonneg hlast h0
  have htn : t ≤ ((l.length - 1 : ℕ) : α) := by
    rw [ht, Nat.cast_sub hpos, Nat.cast_one]
    exact mul_le_of_le_one_right hlast h1
  have hfloor : ⌊t⌋₊ ≤ l.length - 1 := Nat.floor_le_of_le htn
  rw [type7, lerp, ← ht]
  simp only [Nat.floor_add_one ht0, Nat.add_sub_cancel, Nat.cast_add, Nat.cast_one]
  have hlen : (l.insertionSort (· ≤ ·)).length = l.length := List.length_insertionSort _ _
  have hfirst : nth (l.insertionSort (· ≤ ·)) ⌊t⌋₊ = (l.insertionSort (· ≤ ·)).getD ⌊t⌋₊ 0 :=
    nth_eq_getD (by omega)
  rw [hfirst]
  obtain hlt | hge := Nat.lt_or_ge (⌊t⌋₊ + 1) l.length
  · rw [nth_eq_getD (hlen.symm ▸ hlt)]
    ring
  · -- at the last order statistic nothing is left of the line
    have hend : t - ⌊t⌋₊ = 0 := by
      have hle := Nat.floor_le ht0
      have heq : ⌊t⌋₊ = l.length - 1 := by omega
      rw [heq] at hle ⊢
      exact sub_eq_zero.2 (le_antisymm htn hle)
    have hnone : t + 1 - (⌊t⌋₊ + 1) = 0 := by rw [add_sub_add_right_eq_sub, hend]
    rw [hend, hnone]
    ring

/-- **It grows with the probability.** -/
theorem type7_mono (hl : l ≠ []) (h0 : 0 ≤ p) (hpq : p ≤ q) (h1 : q ≤ 1) : type7 l p ≤ type7 l q := by
  have hlast := last_nonneg hl
  rw [type7_eq_lerp hl h0 (hpq.trans h1), type7_eq_lerp hl (h0.trans hpq) h1]
  exact lerp_mono (monotone_nth (List.pairwise_insertionSort _ _)) (mul_nonneg hlast h0)
    (mul_le_mul_of_nonneg_left hpq hlast)

/-- **It grows with every item.** -/
theorem type7_le_type7 (hl : l ≠ []) (h : List.Forall₂ (· ≤ ·) l l') (h0 : 0 ≤ p) (h1 : p ≤ 1) :
    type7 l p ≤ type7 l' p := by
  have hl' : l' ≠ [] := by
    rintro rfl
    exact hl (List.forall₂_nil_right_iff.1 h)
  have hlast := last_nonneg hl
  rw [type7_eq_lerp hl h0 h1, type7_eq_lerp hl' h0 h1, ← h.length_eq]
  exact lerp_le_lerp (nth_le_nth (insertionSort_forall₂_le h)) (mul_nonneg hlast h0)

/-- **It lies between the least and the greatest item.** -/
theorem type7_mem (hl : l ≠ []) (h0 : 0 ≤ p) (h1 : p ≤ 1) :
    ∃ a ∈ l, ∃ b ∈ l, (∀ c ∈ l, a ≤ c ∧ c ≤ b) ∧ a ≤ type7 l p ∧ type7 l p ≤ b := by
  obtain ⟨x, hx⟩ : ∃ x, x = l.insertionSort (· ≤ ·) := ⟨_, rfl⟩
  have hperm : x.Perm l := hx ▸ List.perm_insertionSort _ l
  have hsorted : x.Pairwise (· ≤ ·) := hx ▸ List.pairwise_insertionSort _ l
  have hxl : x ≠ [] := fun h => hl (List.Perm.nil_eq (h ▸ hperm)).symm
  have hmem : ∀ k, nth x k ∈ l := fun k => hperm.mem_iff.1 (nth_mem hxl k)
  obtain ⟨hlow, hhigh⟩ := lerp_mem (monotone_nth hsorted) (mul_nonneg (last_nonneg hl) h0)
  rw [hx, ← type7_eq_lerp hl h0 h1, ← hx] at hlow hhigh
  exact ⟨_, hmem 0, _, hmem (x.length - 1), fun c hc => nth_bounds hsorted (hperm.mem_iff.2 hc),
    (nth_bounds hsorted (nth_mem hxl _)).1.trans hlow,
    hhigh.trans (nth_bounds hsorted (nth_mem hxl _)).2⟩

end Quantile

end Lakehouse

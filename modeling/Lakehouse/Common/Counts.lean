import Lakehouse.Common.Json.Value
/-!
# Dicts of counts

`counts[key] = counts.get(key, 0) + 1` adds one to the sum of the counts.
-/

namespace Lakehouse

namespace Members

/-- `counts[key] = counts.get(key, 0) + 1`. -/
def increment (counts : Members ℕ) (key : Text) : Members ℕ :=
  counts.set key ((counts.get key).getD 0 + 1)

/-- `sum(counts.values())`. -/
def total (counts : Members ℕ) : ℕ := (counts.map Prod.snd).sum

variable {counts : Members ℕ} {key : Text}

theorem set_cons_self {n : ℕ} (h : key ∉ counts.map Prod.fst) (v : ℕ) :
    Members.set ((key, n) :: counts) key v = (key, v) :: counts := by
  have hrest : counts.map (fun m => if m.1 = key then (key, v) else m) = counts := by
    conv_rhs => rw [← List.map_id counts]
    refine List.map_congr_left fun m hm => if_neg ?_
    rintro rfl
    exact h (List.mem_map_of_mem hm)
  have hmem : key ∈ ((key, n) :: counts).map Prod.fst := List.mem_cons_self
  rw [set, if_pos hmem, List.map_cons, if_pos rfl, hrest]

theorem set_cons_ne {k : Text} {n : ℕ} (h : k ≠ key) (v : ℕ) :
    Members.set ((k, n) :: counts) key v = (k, n) :: counts.set key v := by
  by_cases hkey : key ∈ counts.map Prod.fst
  · have hmem : key ∈ ((k, n) :: counts).map Prod.fst := List.mem_cons_of_mem k hkey
    rw [set, set, if_pos hmem, if_pos hkey, List.map_cons, if_neg h]
  · have hmem : key ∉ ((k, n) :: counts).map Prod.fst := by
      rw [List.map_cons, List.mem_cons, not_or]
      exact ⟨h.symm, hkey⟩
    rw [set, set, if_neg hmem, if_neg hkey]
    rfl

theorem Distinct.increment (h : counts.Distinct) (key : Text) : (counts.increment key).Distinct :=
  h.set key _

/-- **One more is counted.** -/
theorem total_increment (h : counts.Distinct) (key : Text) :
    (counts.increment key).total = counts.total + 1 := by
  induction counts with
  | nil => rfl
  | cons m counts ih =>
    obtain ⟨k, n⟩ := m
    obtain ⟨hk, hcounts⟩ := List.nodup_cons.1 h
    rw [increment, get]
    by_cases hkey : key = k
    · subst hkey
      rw [List.lookup_cons_self, Option.getD_some, set_cons_self hk]
      simp only [total, List.map_cons, List.sum_cons]
      omega
    · have hget : List.lookup key ((k, n) :: counts) = Members.get key counts := by
        rw [List.lookup_cons, beq_false_of_ne hkey]
        rfl
      have hrest := ih hcounts
      rw [increment] at hrest
      rw [hget, set_cons_ne (Ne.symm hkey)]
      simp only [total, List.map_cons, List.sum_cons] at hrest ⊢
      omega

end Members

end Lakehouse

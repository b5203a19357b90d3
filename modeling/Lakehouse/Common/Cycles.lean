import Mathlib.Data.List.Rotate
/-!
# Closed lists

A closed list lists a cycle from one of its items back to the same item.
Started at another item it has the same edges (`edges_restart_perm`), and
reversed it has them turned around (`edges_reverse`).

`Relisted` is any number of these: what is read off the edges, in whatever
order and direction, is read off the cycle (`Relisted.edges_cases`).
-/

namespace Lakehouse

variable {α β : Type} {l : List α}

/-- The edges of a list, from one item to the next. -/
def edges (l : List α) : List (α × α) := l.zip l.tail

/-- A list that ends where it began. -/
def Closed (l : List α) : Prop := 2 ≤ l.length ∧ l.head? = l.getLast?

/-- A list with its first item added at the end. -/
def close (l : List α) : List α := l ++ l.head?.toList

/-- **A closed list, started at another of its items.** -/
def restart (k : ℕ) (l : List α) : List α := close (l.dropLast.rotate k)

/-- The first edge of a line. -/
theorem edges_cons_cons (a b : α) (l : List α) : edges (a :: b :: l) = (a, b) :: edges (b :: l) :=
  rfl

/-- The last edge of a line. -/
theorem edges_concat_concat (l : List α) (a b : α) :
    edges (l ++ [a] ++ [b]) = edges (l ++ [a]) ++ [(a, b)] := by
  induction l with
  | nil => rfl
  | cons c l ih =>
    cases l with
    | nil => rfl
    | cons d l => exact congrArg ((c, d) :: ·) ih

/-- **Reversed, a list has its edges turned around.** -/
theorem edges_reverse (l : List α) : edges l.reverse = ((edges l).map Prod.swap).reverse := by
  induction l with
  | nil => rfl
  | cons a l ih =>
    cases l with
    | nil => rfl
    | cons b l =>
      rw [List.reverse_cons, List.reverse_cons, edges_concat_concat, ← List.reverse_cons, ih,
        edges_cons_cons, List.map_cons, List.reverse_cons]
      rfl

/-- Closing commutes with a map. -/
theorem close_map (f : α → β) (l : List α) : (close l).map f = close (l.map f) := by
  cases l with
  | nil => rfl
  | cons a l => simp [close]

/-- Restarting commutes with a map. -/
theorem restart_map (f : α → β) (k : ℕ) (l : List α) : (restart k l).map f = restart k (l.map f) := by
  rw [restart, restart, close_map, List.map_rotate, List.map_dropLast]

/-- A closed list is one that has been closed. -/
theorem Closed.eq_close (h : Closed l) : close l.dropLast = l := by
  obtain ⟨hlength, hends⟩ := h
  obtain ⟨us, b, rfl⟩ : ∃ us b, l = us ++ [b] :=
    ⟨l.dropLast, l.getLast (by rintro rfl; simp at hlength), (List.dropLast_append_getLast _).symm⟩
  rw [List.dropLast_concat, close]
  cases us with
  | nil => simp at hlength
  | cons a us =>
    rw [List.getLast?_concat, List.cons_append, List.head?_cons] at hends
    rw [List.head?_cons, hends]
    rfl

/-- The edges of a closed list join each element to the next, the last to the
first. -/
theorem edges_close (l : List α) : edges (close l) = l.zip (l.rotate 1) := by
  cases l with
  | nil => rfl
  | cons a l =>
    have hlength : (a :: l).length = (l ++ [a]).length := by simp
    have htail : (close (a :: l)).tail = l ++ [a] ++ [] := by simp [close]
    rw [edges, htail, close, List.zip_append hlength, List.zip_nil_right, List.append_nil,
      List.rotate_cons_succ, List.rotate_zero]

/-- **Started elsewhere, a closed list has the same edges.** -/
theorem edges_restart_perm (h : Closed l) (k : ℕ) : (edges (restart k l)).Perm (edges l) := by
  have hrotate : edges (restart k l) = (l.dropLast.zip (l.dropLast.rotate 1)).rotate k := by
    rw [restart, edges_close, List.rotate_rotate, Nat.add_comm k 1, ← List.rotate_rotate,
      List.zip_eq_zipWith, List.zip_eq_zipWith, List.zipWith_rotate_distrib _ _ _ _ (List.length_rotate _ _).symm]
  rw [hrotate, ← edges_close, h.eq_close]
  exact List.rotate_perm _ _

/-- A ring restarted is closed. -/
theorem Closed.restart (h : Closed l) (k : ℕ) : Closed (restart k l) := by
  have hlength : (l.dropLast.rotate k).length = l.length - 1 := by simp
  obtain ⟨hl, -⟩ := h
  rw [Lakehouse.restart]
  cases hrotate : l.dropLast.rotate k with
  | nil =>
    rw [hrotate, List.length_nil] at hlength
    omega
  | cons a us =>
    refine ⟨by simp [close], ?_⟩
    rw [close, List.head?_cons, Option.toList_some, List.getLast?_concat]
    rfl

/-- A ring reversed is closed. -/
theorem Closed.reverse (h : Closed l) : Closed l.reverse := by
  obtain ⟨hlength, hends⟩ := h
  exact ⟨by rwa [List.length_reverse], by rw [List.head?_reverse, List.getLast?_reverse, hends]⟩

/-- A ring mapped is closed. -/
theorem Closed.map (f : α → β) (h : Closed l) : Closed (l.map f) := by
  obtain ⟨hlength, hends⟩ := h
  exact ⟨by rwa [List.length_map], by rw [List.head?_map, List.getLast?_map, hends]⟩

/-- **The same cycle**, listed from another item or the other way round. -/
inductive Relisted (l : List α) : List α → Prop
  | refl : Relisted l l
  | restart {l' : List α} (k : ℕ) (h : Relisted l l') : Relisted l (restart k l')
  | reverse {l' : List α} (h : Relisted l l') : Relisted l l'.reverse

namespace Relisted

variable {l' : List α}

/-- A map keeps rings relisted. -/
theorem map (f : α → β) (h : Relisted l l') : Relisted (l.map f) (l'.map f) := by
  induction h with
  | refl => exact .refl
  | restart k _ ih =>
    rw [restart_map]
    exact ih.restart k
  | reverse _ ih =>
    rw [List.map_reverse]
    exact ih.reverse

/-- A ring relisted is closed. -/
theorem closed (h : Relisted l l') (hl : Closed l) : Closed l' := by
  induction h with
  | refl => exact hl
  | restart k _ ih => exact ih.restart k
  | reverse _ ih => exact ih.reverse

/-- Nothing new is listed. -/
theorem subset (h : Relisted l l') {a : α} (ha : a ∈ l') : a ∈ l := by
  induction h with
  | refl => exact ha
  | @restart l' k _ ih =>
    refine ih (List.dropLast_subset l' ?_)
    rw [Lakehouse.restart, close, List.mem_append, Option.mem_toList] at ha
    rcases ha with ha | ha
    · exact List.mem_rotate.1 ha
    · exact List.mem_rotate.1 (List.mem_of_mem_head? ha)
  | reverse _ ih => exact ih (List.mem_reverse.1 ha)

/-- **A cycle has its edges, or all of them turned around.** -/
theorem edges_cases (h : Relisted l l') (hl : Closed l) :
    (edges l').Perm (edges l) ∨ (edges l').Perm ((edges l).map Prod.swap) := by
  induction h with
  | refl => exact .inl (List.Perm.refl _)
  | restart k h ih =>
    have hperm := edges_restart_perm (h.closed hl) k
    exact ih.imp hperm.trans hperm.trans
  | @reverse l' h ih =>
    have hperm : (edges l'.reverse).Perm ((edges l').map Prod.swap) := by
      rw [edges_reverse]
      exact List.reverse_perm _
    rcases ih with ih | ih
    · exact .inr (hperm.trans (ih.map Prod.swap))
    · have hturn := ih.map Prod.swap
      rw [List.map_map, Prod.swap_swap_eq, List.map_id] at hturn
      exact .inl (hperm.trans hturn)

end Relisted

end Lakehouse

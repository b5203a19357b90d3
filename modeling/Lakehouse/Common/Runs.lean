import Mathlib.Data.List.Destutter
import Mathlib.Data.List.SplitBy
/-!
# Runs of alike items

Dropping every item that is like the last one kept leaves the first item
of each run of alike neighbours (`destutter_eq_heads`), where being alike
is having the same value of something.
-/

namespace Lakehouse

variable {α κ : Type} {alike : α → α → Bool} {f : α → κ} {l run tail : List α} {a b : α}

/-- Items that are alike are dropped. -/
theorem destutter'_append_of_alike (h : ∀ x ∈ run, alike a x = true) (tail : List α) :
    (run ++ tail).destutter' (fun x y => alike x y = false) a =
      tail.destutter' (fun x y => alike x y = false) a := by
  induction run with
  | nil => rfl
  | cons x run ih =>
    obtain ⟨hx, hrun⟩ := List.forall_mem_cons.1 h
    rw [List.cons_append, List.destutter'_cons_neg _ (by simp [hx]), ih hrun]

/-- A chain of neighbours with the same value is of one value. -/
theorem eq_of_isChain (h : (a :: run).IsChain fun x y => f x = f y) : ∀ x ∈ run, f a = f x := by
  induction run generalizing a with
  | nil => nofun
  | cons b run ih =>
    rw [List.isChain_cons_cons] at h
    refine List.forall_mem_cons.2 ⟨h.1, fun x hx => h.1.trans (ih h.2 x hx)⟩

/-- **What is left of a list of runs** is their heads. -/
theorem destutter_flatten {runs : List (List α)}
    (hf : ∀ x ∈ runs.flatten, ∀ y ∈ runs.flatten, (alike x y = true ↔ f x = f y))
    (hne : [] ∉ runs) (hchain : ∀ run ∈ runs, run.IsChain fun x y => alike x y)
    (hbetween : runs.IsChain fun r s => ∃ hr hs, alike (r.getLast hr) (s.head hs) = false) :
    runs.flatten.destutter (fun x y => alike x y = false) = runs.filterMap List.head? := by
  induction runs with
  | nil => rfl
  | cons run runs ih =>
    obtain ⟨hrun, hnil⟩ := not_or.1 (List.mem_cons.not.1 hne)
    obtain ⟨a, run, rfl⟩ := List.exists_cons_of_ne_nil (Ne.symm hrun)
    have hmem : ∀ x ∈ a :: run, x ∈ ((a :: run) :: runs).flatten := fun x hx =>
      List.mem_append_left _ hx
    have hsame : ∀ x ∈ run, f a = f x := by
      refine eq_of_isChain ((hchain _ List.mem_cons_self).imp_of_mem_imp fun x y hx hy hxy => ?_)
      exact (hf x (hmem x hx) y (hmem y hy)).1 hxy
    have halike : ∀ x ∈ run, alike a x = true := fun x hx =>
      (hf a (hmem a List.mem_cons_self) x (hmem x (List.mem_cons_of_mem a hx))).2 (hsame x hx)
    have ih := ih (fun x hx y hy => hf x (List.mem_append_right _ hx) y (List.mem_append_right _ hy))
      hnil (fun r hr => hchain r (List.mem_cons_of_mem _ hr)) hbetween.tail
    have hheads : ((a :: run) :: runs).filterMap List.head? = a :: runs.filterMap List.head? := rfl
    rw [List.flatten_cons, List.cons_append, List.destutter_cons', destutter'_append_of_alike halike,
      hheads, ← ih]
    cases runs with
    | nil => rfl
    | cons next runs =>
      obtain ⟨hnext, -⟩ := not_or.1 (List.mem_cons.not.1 hnil)
      obtain ⟨b, next, rfl⟩ := List.exists_cons_of_ne_nil (Ne.symm hnext)
      obtain ⟨_, _, hapart⟩ := (List.isChain_cons_cons.1 hbetween).1
      -- the last item of the run tells the next apart; so does its first
      have hlast : f a = f ((a :: run).getLast (List.cons_ne_nil a run)) := by
        obtain h | h := List.mem_cons.1 (List.getLast_mem (List.cons_ne_nil a run))
        · rw [h]
        · exact hsame _ h
      have hb : b ∈ ((a :: run) :: (b :: next) :: runs).flatten := by simp
      have hab : alike a b = false := by
        rw [← Bool.not_eq_true] at hapart ⊢
        intro h
        refine hapart ((hf _ (hmem _ (List.getLast_mem _)) b hb).2 ?_)
        exact hlast.symm.trans ((hf a (hmem a List.mem_cons_self) b hb).1 h)
      rw [List.flatten_cons, List.cons_append, List.destutter'_cons_pos (R := fun x y => alike x y = false) _ hab, List.destutter_cons']

/-- **Dropping every item that is like the last one kept** leaves the first
of each run. -/
theorem destutter_eq_heads (hf : ∀ x ∈ l, ∀ y ∈ l, (alike x y = true ↔ f x = f y)) :
    l.destutter (fun x y => alike x y = false) = (l.splitBy alike).filterMap List.head? := by
  obtain ⟨hflatten, hne, hchain, hbetween⟩ := List.splitBy_eq_iff.1 (rfl : l.splitBy alike = _)
  rw [hflatten] at hf
  conv_lhs => rw [hflatten]
  exact destutter_flatten hf hne hchain hbetween

end Lakehouse

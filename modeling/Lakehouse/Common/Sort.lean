import Mathlib.Data.List.Sort
import Mathlib.Data.Prod.Lex
import Mathlib.Data.List.Lex
import Mathlib.Order.RelClasses
/-!
# Sorting by a key

Python's `sorted(items, key=key)`: stable, ascending in the key. What a
sort by pairwise distinct keys returns does not depend on the order the
items came in (`sortBy_perm`).
-/

namespace Lakehouse

variable {α β κ : Type} [LinearOrder κ]

/-- `sorted(items, key=key)`. -/
def sortBy (key : α → κ) (l : List α) : List α := l.insertionSort fun a b => key a ≤ key b

/-- Nothing is sorted to nothing. -/
@[simp] theorem sortBy_nil (key : α → κ) : sortBy key [] = [] := rfl

/-- A sorted list is a permutation. -/
theorem perm_sortBy (key : α → κ) (l : List α) : (sortBy key l).Perm l :=
  List.perm_insertionSort _ l

/-- A sorted list has the same elements. -/
@[simp] theorem mem_sortBy {key : α → κ} {l : List α} {a : α} : a ∈ sortBy key l ↔ a ∈ l :=
  (perm_sortBy key l).mem_iff

/-- A sorted list is as long. -/
@[simp] theorem length_sortBy (key : α → κ) (l : List α) : (sortBy key l).length = l.length :=
  (perm_sortBy key l).length_eq

/-- A sorted list is sorted. -/
theorem pairwise_sortBy (key : α → κ) (l : List α) :
    (sortBy key l).Pairwise fun a b => key a ≤ key b := by
  have : Std.Total fun a b : α => key a ≤ key b := ⟨fun a b => le_total _ _⟩
  have : IsTrans α fun a b => key a ≤ key b := ⟨fun a b c => le_trans⟩
  exact List.pairwise_insertionSort _ l

/-- A list already in order stays as it is. -/
theorem sortBy_of_pairwise {key : α → κ} {l : List α} (h : l.Pairwise fun a b => key a ≤ key b) :
    sortBy key l = l :=
  h.insertionSort_eq

/-- Sorting commutes with a map that keeps the key. -/
theorem sortBy_map {key : β → κ} (f : α → β) (l : List α) :
    sortBy key (l.map f) = (sortBy (fun a => key (f a)) l).map f := by
  exact (List.map_insertionSort _ _ f l fun a _ b _ => Iff.rfl).symm

/-- **A sort by distinct keys forgets the order of its input.** -/
theorem sortBy_perm {key : α → κ} {l l' : List α} (h : l.Perm l') (hk : (l.map key).Nodup) :
    sortBy key l = sortBy key l' := by
  have hp : (sortBy key l).Perm (sortBy key l') :=
    (perm_sortBy key l).trans (h.trans (perm_sortBy key l').symm)
  refine List.Perm.eq_of_pairwise (fun a b ha hb hab hba => ?_) (pairwise_sortBy key l)
    (pairwise_sortBy key l') hp
  have hab' : key a = key b := le_antisymm hab hba
  exact List.inj_on_of_nodup_map hk (mem_sortBy.1 ha) (h.mem_iff.2 (mem_sortBy.1 hb)) hab'

/-- What `sorted` returns does not depend on the order it was given. -/
theorem insertionSort_perm {l l' : List κ} (h : l.Perm l') :
    l.insertionSort (· ≤ ·) = l'.insertionSort (· ≤ ·) :=
  List.Perm.eq_of_pairwise (fun _ _ _ _ => le_antisymm) (List.pairwise_insertionSort _ _)
    (List.pairwise_insertionSort _ _)
    ((List.perm_insertionSort _ _).trans (h.trans (List.perm_insertionSort _ _).symm))

/-- **Items in the order of distinct keys are told by their members.** -/
theorem eq_of_mem_iff (key : α → κ) {l l' : List α} (h : l.Pairwise fun a b => key a < key b)
    (h' : l'.Pairwise fun a b => key a < key b) (hmem : ∀ a, a ∈ l ↔ a ∈ l') : l = l' := by
  have hne : ∀ {a b}, key a < key b → a ≠ b := fun hab heq => hab.ne (congrArg key heq)
  have hperm := (List.perm_ext_iff_of_nodup (h.imp hne) (h'.imp hne)).2 hmem
  exact hperm.eq_of_pairwise (fun a b _ _ hab hba => absurd hab hba.not_gt) h h'

/-- An item no greater than the others is inserted in front. -/
theorem orderedInsert_of_forall_le {key : α → κ} {a : α} {l : List α} (h : ∀ b ∈ l, key a ≤ key b) :
    l.orderedInsert (fun a b => key a ≤ key b) a = a :: l := by
  cases l with
  | nil => rfl
  | cons b l => rw [List.orderedInsert, if_pos (h b List.mem_cons_self)]

/-- **The sort is stable**: it commutes with every filter. -/
theorem sortBy_filter (key : α → κ) (l : List α) (p : α → Bool) :
    (sortBy key l).filter p = sortBy key (l.filter p) := by
  have insert : ∀ {a} {l : List α}, l.Pairwise (fun a b => key a ≤ key b) →
      (l.orderedInsert (fun a b => key a ≤ key b) a).filter p =
        if p a then (l.filter p).orderedInsert (fun a b => key a ≤ key b) a else l.filter p := by
    intro a l hl
    induction l with
    | nil => cases h : p a <;> simp [h]
    | cons b l ih =>
      rw [List.pairwise_cons] at hl
      have ih := ih hl.2
      rw [List.orderedInsert]
      split_ifs with hab hp hp
      · have hle : ∀ c ∈ (b :: l).filter p, key a ≤ key c := by
          intro c hc
          obtain rfl | hc := List.mem_cons.1 (List.mem_filter.1 hc).1
          · exact hab
          · exact hab.trans (hl.1 c hc)
        rw [List.filter_cons_of_pos hp, orderedInsert_of_forall_le hle]
      · rw [List.filter_cons_of_neg hp]
      · rw [if_pos hp] at ih
        rw [List.filter_cons, List.filter_cons, ih]
        split_ifs
        · rw [List.orderedInsert, if_neg hab]
        · rfl
      · rw [if_neg hp] at ih
        rw [List.filter_cons, List.filter_cons, ih]
  induction l with
  | nil => rfl
  | cons a l ih =>
    change ((sortBy key l).orderedInsert _ a).filter p = _
    rw [insert (pairwise_sortBy key l), ih, List.filter_cons]
    split_ifs
    · rfl
    · rfl

/-- Items related place by place, with the same keys, are so once sorted. -/
theorem sortBy_forall₂ {R : α → β → Prop} {key : α → κ} {key' : β → κ}
    (hkey : ∀ a b, R a b → key a = key' b) {l : List α} {l' : List β} (h : List.Forall₂ R l l') :
    List.Forall₂ R (sortBy key l) (sortBy key' l') := by
  have insert : ∀ {a b} {l : List α} {l' : List β}, R a b → List.Forall₂ R l l' →
      List.Forall₂ R (l.orderedInsert (fun a b => key a ≤ key b) a)
        (l'.orderedInsert (fun a b => key' a ≤ key' b) b) := by
    intro a b l l' hab h
    induction h with
    | nil => exact .cons hab .nil
    | @cons c d _ _ hcd hrest ih =>
      rw [List.orderedInsert, List.orderedInsert, hkey a b hab, hkey c d hcd]
      split_ifs
      · exact .cons hab (.cons hcd hrest)
      · exact .cons hcd ih
  induction h with
  | nil => exact .nil
  | cons hab _ ih => exact insert hab ih

end Lakehouse

import Mathlib.Order.Lattice
import Mathlib.Data.List.Basic
import Mathlib.Data.List.Induction
/-!
# The first of the greatest items

A loop that keeps an item and replaces it by a strictly greater one ends
with the first of the greatest items it has seen (`FirstGreatest.concat`).
A further copy of an item can only take that place by coming before its
equals (`FirstGreatest.insert`).
-/

namespace Lakehouse

variable {α κ : Type} [LinearOrder κ] {order : α → κ} {l pre post : List α} {x y : α}

/-- **The first of the greatest items** of a list. -/
def FirstGreatest (order : α → κ) (l : List α) (x : α) : Prop :=
  ∃ pre post, l = pre ++ x :: post ∧ (∀ u ∈ pre, order u < order x) ∧
    ∀ u ∈ post, order u ≤ order x

/-- The item kept, once one more is seen. -/
def keepGreatest (order : α → κ) (kept x : α) : α := if order kept < order x then x else kept

namespace FirstGreatest

/-- The first greatest is in the list. -/
theorem mem (h : FirstGreatest order l x) : x ∈ l := by
  obtain ⟨pre, post, rfl, -, -⟩ := h
  simp

/-- The first greatest is greatest. -/
theorem le (h : FirstGreatest order l x) : ∀ u ∈ l, order u ≤ order x := by
  obtain ⟨pre, post, rfl, hpre, hpost⟩ := h
  intro u hu
  obtain hu | hu := List.mem_append.1 hu
  · exact (hpre u hu).le
  · obtain rfl | hu := List.mem_cons.1 hu
    · exact le_rfl
    · exact hpost u hu

/-- A single element is the first greatest. -/
theorem singleton (x : α) : FirstGreatest order [x] x := ⟨[], [], rfl, by simp, by simp⟩

/-- **One item more.** -/
theorem concat (h : FirstGreatest order l x) (y : α) :
    FirstGreatest order (l ++ [y]) (keepGreatest order x y) := by
  unfold keepGreatest
  split_ifs with hlt
  · exact ⟨l, [], rfl, fun u hu => (h.le u hu).trans_lt hlt, by simp⟩
  · obtain ⟨pre, post, rfl, hpre, hpost⟩ := h
    refine ⟨pre, post ++ [y], by simp, hpre, fun u hu => ?_⟩
    obtain hu | hu := List.mem_append.1 hu
    · exact hpost u hu
    · rw [List.mem_singleton.1 hu]
      exact not_lt.1 hlt

/-- There is only one. -/
theorem unique (h : FirstGreatest order l x) (h' : FirstGreatest order l y) : x = y := by
  have hxy := le_antisymm (h'.le x h.mem) (h.le y h'.mem)
  obtain ⟨pre, post, rfl, hpre, -⟩ := h
  obtain ⟨pre', post', heq, hpre', -⟩ := h'
  obtain ⟨as, hpre₂, hpost₂⟩ | ⟨as, hpre₂, hpost₂⟩ := List.append_eq_append_iff.1 heq
  · cases as with
    | nil => exact (List.cons.inj hpost₂).1
    | cons a as =>
      obtain ⟨rfl, -⟩ := List.cons.inj hpost₂
      have hlt := hpre' x (by rw [hpre₂]; simp)
      exact absurd hxy hlt.ne
  · cases as with
    | nil => exact (List.cons.inj hpost₂).1.symm
    | cons a as =>
      obtain ⟨rfl, -⟩ := List.cons.inj hpost₂
      have hlt := hpre y (by rw [hpre₂]; simp)
      exact absurd hxy hlt.ne'

/-- **One item inserted**: the place of the greatest stays taken, unless
the new item is as great and stands before. -/
theorem insert (h : FirstGreatest order (pre ++ post) x) (hy : order y ≤ order x)
    (hfirst : order y = order x → ∃ u ∈ pre, order u = order x) :
    FirstGreatest order (pre ++ y :: post) x := by
  obtain ⟨before, after, heq, hbefore, hafter⟩ := h
  have hbehind : ∀ as, before = pre ++ as → post = as ++ x :: after →
      FirstGreatest order (pre ++ y :: post) x := by
    rintro as rfl rfl
    refine ⟨pre ++ y :: as, after, by simp, fun u hu => ?_, hafter⟩
    obtain hu | hu := List.mem_append.1 hu
    · exact hbefore u (List.mem_append_left _ hu)
    obtain rfl | hu := List.mem_cons.1 hu
    · refine lt_of_le_of_ne hy fun he => ?_
      obtain ⟨v, hv, hvx⟩ := hfirst he
      exact absurd hvx (hbefore v (List.mem_append_left _ hv)).ne
    · exact hbefore u (List.mem_append_right _ hu)
  obtain ⟨as, hpre, hpost⟩ | ⟨as, hpre, hpost⟩ := List.append_eq_append_iff.1 heq
  · exact hbehind as hpre hpost
  · cases as with
    | nil => exact hbehind [] (by simpa using hpre.symm) (by simpa using hpost.symm)
    | cons a as =>
      obtain ⟨rfl, rfl⟩ := List.cons.inj hpost
      subst hpre
      refine ⟨before, as ++ y :: post, by simp, hbefore, fun u hu => ?_⟩
      obtain hu | hu := List.mem_append.1 hu
      · exact hafter u (List.mem_append_left _ hu)
      obtain rfl | hu := List.mem_cons.1 hu
      · exact hy
      · exact hafter u (List.mem_append_right _ hu)

/-- **The order the items come in does not matter** where no other is as
great. -/
theorem perm {l' : List α} (h : FirstGreatest order l x) (h' : FirstGreatest order l' y)
    (hp : l.Perm l') (honly : ∀ u ∈ l, order u = order x → u = x) : y = x := by
  have hle := h'.le x (hp.mem_iff.1 h.mem)
  have hge := h.le y (hp.mem_iff.2 h'.mem)
  exact honly y (hp.mem_iff.2 h'.mem) (le_antisymm hge hle)

/-- An item no other is greater than, in front of the others. -/
theorem cons (h : ∀ u ∈ l, order u ≤ order x) : FirstGreatest order (x :: l) x :=
  ⟨[], l, rfl, nofun, h⟩

end FirstGreatest

/-- A list that is not empty has a first greatest. -/
theorem exists_firstGreatest (hne : l ≠ []) : ∃ x, FirstGreatest order l x := by
  induction l using List.reverseRecOn with
  | nil => exact absurd rfl hne
  | append_singleton l y ih =>
    obtain rfl | hl := eq_or_ne l []
    · exact ⟨y, .singleton y⟩
    · obtain ⟨x, hx⟩ := ih hl
      exact ⟨_, hx.concat y⟩

/-! ## The item kept -/

/-- **What a loop keeps of the items it has seen.** -/
def Keeps (order : α → κ) (l : List α) : Option α → Prop
  | none => l = []
  | some x => FirstGreatest order l x

/-- What it keeps after one more. -/
def keepNext (order : α → κ) (kept : Option α) (x : α) : α :=
  match kept with
  | none => x
  | some kept => keepGreatest order kept x

/-- **What is kept of a longer list** is the better of what was kept and the
new element. -/
theorem Keeps.concat {kept : Option α} (h : Keeps order l kept) (x : α) :
    Keeps order (l ++ [x]) (some (keepNext order kept x)) := by
  cases kept with
  | none =>
    have hnil : l = [] := h
    rw [hnil]
    exact .singleton x
  | some y => exact FirstGreatest.concat h x

/-- What is kept is the first greatest. -/
theorem Keeps.eq_some {kept : Option α} (h : Keeps order l kept) :
    kept = some x ↔ FirstGreatest order l x := by
  cases kept with
  | none =>
    have hnil : l = [] := h
    refine ⟨nofun, fun hx => ?_⟩
    have hmem := hx.mem
    simp [hnil] at hmem
  | some y =>
    have hy : FirstGreatest order l y := h
    exact ⟨fun heq => Option.some.inj heq ▸ hy, fun hx => congrArg some (hy.unique hx)⟩

/-- Nothing is kept of nothing. -/
theorem Keeps.eq_none {kept : Option α} (h : Keeps order l kept) : kept = none ↔ l = [] := by
  cases kept with
  | none => exact ⟨fun _ => h, fun _ => rfl⟩
  | some y =>
    have hmem := FirstGreatest.mem (x := y) h
    exact ⟨nofun, fun hnil => by simp [hnil] at hmem⟩

/-- **Where no two items are as great, the order they came in does not
matter.** -/
theorem Keeps.perm {l' : List α} {kept kept' : Option α} (h : Keeps order l kept)
    (h' : Keeps order l' kept') (hp : l.Perm l')
    (hinj : ∀ x ∈ l, ∀ y ∈ l, order x = order y → x = y) : kept = kept' := by
  cases kept with
  | none =>
    have hnil : l = [] := h
    rw [hnil] at hp
    exact ((h'.eq_none).2 hp.nil_eq.symm).symm
  | some x =>
    cases kept' with
    | none =>
      have hnil : l' = [] := h'
      rw [hnil] at hp
      exact absurd (h.eq_none.2 hp.eq_nil) nofun
    | some y =>
      have hx : FirstGreatest order l x := h
      exact congrArg some (hx.perm h' hp fun u hu heq => hinj u hu x hx.mem heq).symm

end Lakehouse

import Lakehouse.Common.Greatest
import Mathlib.Data.List.Nodup
/-!
# Simplifying a sequence

Ramer-Douglas-Peucker over any measure of how far an item lies from the
chord of two others: between two items kept, the first of the farthest is
kept as well where it is beyond the tolerance, and both sides are
simplified in turn. `Simplified` relates the items between two others to
those kept. It is a function (`exists_simplified`, `Simplified.unique`),
simplifying again changes nothing (`Simplified.idem`), a larger tolerance
keeps no more (`Simplified.mono`), and what is skipped is near the chord of
the items kept around it (`Simplified.bracketed`).
-/

namespace Lakehouse

variable {α β κ : Type} [LinearOrder κ] {far : α → α → α → κ} {t t' : κ}
variable {a b m : α} {l pre post r r' s : List α}

/-- **The items kept between two others.** -/
inductive Simplified (far : α → α → α → κ) (t : κ) : α → List α → α → List α → Prop
  /-- None is beyond the tolerance. -/
  | stop {a b : α} {l : List α} : (∀ v ∈ l, far a b v ≤ t) → Simplified far t a l b []
  /-- The first of the farthest is kept. -/
  | split {a b m : α} {pre post r s : List α} :
      (∀ u ∈ pre, far a b u < far a b m) → (∀ u ∈ post, far a b u ≤ far a b m) →
      t < far a b m → Simplified far t a pre m r → Simplified far t m post b s →
      Simplified far t a (pre ++ m :: post) b (r ++ m :: s)

/-- Every sequence can be simplified. -/
theorem exists_simplified (far : α → α → α → κ) (t : κ) (a : α) (l : List α) (b : α) :
    ∃ r, Simplified far t a l b r := by
  by_cases h : ∀ v ∈ l, far a b v ≤ t
  · exact ⟨[], .stop h⟩
  · push Not at h
    obtain ⟨v, hv, ht⟩ := h
    obtain ⟨m, hm⟩ : ∃ m, FirstGreatest (far a b) l m := exists_firstGreatest (List.ne_nil_of_mem hv)
    have hle := hm.le v hv
    obtain ⟨pre, post, hl, hpre, hpost⟩ := hm
    have hlength : l.length = pre.length + (post.length + 1) := by
      rw [hl, List.length_append, List.length_cons]
    obtain ⟨r, hr⟩ := exists_simplified far t a pre m
    obtain ⟨s, hs⟩ := exists_simplified far t m post b
    exact ⟨r ++ m :: s, hl ▸ .split hpre hpost (ht.trans_le hle) hr hs⟩
termination_by l.length
decreasing_by all_goals omega

/-- The first of the farthest stands in one place. -/
theorem firstGreatest_place {order : α → κ} {m' : α} {pre' post' : List α}
    (hpre : ∀ u ∈ pre, order u < order m) (hpost : ∀ u ∈ post, order u ≤ order m)
    (hpre' : ∀ u ∈ pre', order u < order m') (hpost' : ∀ u ∈ post', order u ≤ order m')
    (h : pre ++ m :: post = pre' ++ m' :: post') : pre = pre' ∧ m = m' ∧ post = post' := by
  obtain ⟨as, h₁, h₂⟩ | ⟨as, h₁, h₂⟩ := List.append_eq_append_iff.1 h
  · cases as with
    | nil =>
      rw [List.append_nil] at h₁
      exact ⟨h₁.symm, (List.cons.inj h₂).1, (List.cons.inj h₂).2⟩
    | cons x as =>
      obtain ⟨rfl, hpost₂⟩ := List.cons.inj h₂
      have hlt := hpre' m (by rw [h₁]; simp)
      have hle := hpost m' (by rw [hpost₂]; simp)
      exact absurd hlt (not_lt.2 hle)
  · cases as with
    | nil =>
      rw [List.append_nil] at h₁
      exact ⟨h₁, (List.cons.inj h₂).1.symm, (List.cons.inj h₂).2.symm⟩
    | cons x as =>
      obtain ⟨rfl, hpost₂⟩ := List.cons.inj h₂
      have hlt := hpre m' (by rw [h₁]; simp)
      have hle := hpost' m (by rw [hpost₂]; simp)
      exact absurd hlt (not_lt.2 hle)

namespace Simplified

/-- **A chord with an item beyond the tolerance is split** at the first of
the farthest. -/
theorem of_split (hpre : ∀ u ∈ pre, far a b u < far a b m) (hpost : ∀ u ∈ post, far a b u ≤ far a b m)
    (ht : t < far a b m) (h : Simplified far t a (pre ++ m :: post) b r) :
    ∃ r₁ r₂, r = r₁ ++ m :: r₂ ∧ Simplified far t a pre m r₁ ∧ Simplified far t m post b r₂ := by
  generalize hl : pre ++ m :: post = l at h
  cases h with
  | stop hall => exact absurd ht (not_lt.2 (hall m (by rw [← hl]; simp)))
  | split hpre' hpost' _ hr hs =>
    obtain ⟨rfl, rfl, rfl⟩ := firstGreatest_place hpre hpost hpre' hpost' hl
    exact ⟨_, _, rfl, hr, hs⟩

/-- **A larger tolerance keeps no more.** -/
theorem mono (ht : t ≤ t') (h' : Simplified far t' a l b r') (h : Simplified far t a l b r) :
    r'.Sublist r := by
  induction h' generalizing r with
  | stop => exact List.nil_sublist _
  | split hpre hpost hfar _ _ ihl ihr =>
    obtain ⟨r₁, r₂, rfl, hl, hr⟩ := of_split hpre hpost (ht.trans_lt hfar) h
    exact (ihl hl).append ((ihr hr).cons_cons _)

/-- There is one way. -/
theorem unique (h : Simplified far t a l b r) (h' : Simplified far t a l b r') : r = r' :=
  (mono le_rfl h h').antisymm (mono le_rfl h' h)

theorem sublist (h : Simplified far t a l b r) : r.Sublist l := by
  induction h with
  | stop => exact List.nil_sublist _
  | split _ _ _ _ _ ihl ihr => exact ihl.append (ihr.cons_cons _)

/-- **Simplifying again changes nothing**: a chord is split at the item it
was split at before. -/
theorem idem (h : Simplified far t a l b r) : Simplified far t a r b r := by
  induction h with
  | stop => exact .stop (fun _ hv => absurd hv List.not_mem_nil)
  | split hpre hpost ht hl hr ihl ihr =>
    exact .split (fun u hu => hpre u (hl.sublist.subset hu))
      (fun u hu => hpost u (hr.sublist.subset hu)) ht ihl ihr

/-- The measure is all that is looked at. -/
theorem map {far' : β → β → β → κ} {f : α → β} (hf : ∀ a b v, far' (f a) (f b) (f v) = far a b v)
    (h : Simplified far t a l b r) : Simplified far' t (f a) (l.map f) (f b) (r.map f) := by
  induction h with
  | stop hall =>
    refine .stop fun v hv => ?_
    obtain ⟨u, hu, rfl⟩ := List.mem_map.1 hv
    rw [hf]
    exact hall u hu
  | split hpre hpost ht _ _ ihl ihr =>
    rw [List.map_append, List.map_append, List.map_cons, List.map_cons]
    refine .split (fun v hv => ?_) (fun v hv => ?_) (by rwa [hf]) ihl ihr
    · obtain ⟨u, hu, rfl⟩ := List.mem_map.1 hv
      rw [hf, hf]
      exact hpre u hu
    · obtain ⟨u, hu, rfl⟩ := List.mem_map.1 hv
      rw [hf, hf]
      exact hpost u hu

end Simplified

/-! ## What is skipped -/

/-- **The items between two others and those kept of them**: each item
skipped is related to the two items kept around it. -/
inductive Bracketed (near : α → α → α → Prop) : α → List α → List α → α → Prop
  | last {a b : α} {gap : List α} : (∀ v ∈ gap, near a b v) → Bracketed near a gap [] b
  | step {a m b : α} {gap l r : List α} : (∀ v ∈ gap, near a m v) → Bracketed near m l r b →
      Bracketed near a (gap ++ m :: l) (m :: r) b

variable {near : α → α → α → Prop}

theorem Bracketed.append (h : Bracketed near a l r m) (h' : Bracketed near m post s b) :
    Bracketed near a (l ++ m :: post) (r ++ m :: s) b := by
  induction h with
  | last hgap => exact .step hgap h'
  | step hgap _ ih =>
    rw [List.append_assoc, List.cons_append, List.cons_append]
    exact .step hgap (ih h')

/-- **An item is kept, or stands between two items kept in a row** and is
near their chord. -/
theorem Bracketed.kept_or {before : α → α → Prop} (h : Bracketed near a l r b)
    (hsorted : (a :: (l ++ [b])).Pairwise before) {v : α} (hv : v ∈ l) :
    v ∈ r ∨ ∃ p q, [p, q] <:+: a :: (r ++ [b]) ∧ (before p v ∧ before v q) ∧ near p q v := by
  induction h with
  | @last a b gap hgap =>
    rw [List.pairwise_cons, List.pairwise_append] at hsorted
    exact .inr ⟨a, b, List.infix_rfl, ⟨hsorted.1 v (List.mem_append_left _ hv),
      hsorted.2.2.2 v hv b (List.mem_singleton_self b)⟩, hgap v hv⟩
  | @step a m b gap l r hgap _ ih =>
    rw [List.append_assoc, List.pairwise_cons, List.pairwise_append] at hsorted
    obtain ⟨hfirst, -, hrest, hacross⟩ := hsorted
    obtain hv | hv := List.mem_append.1 hv
    · exact .inr ⟨a, m, ⟨[], r ++ [b], rfl⟩, ⟨hfirst v (List.mem_append_left _ hv),
        hacross v hv m List.mem_cons_self⟩, hgap v hv⟩
    · obtain rfl | hv := List.mem_cons.1 hv
      · exact .inl List.mem_cons_self
      · obtain hkept | ⟨p, q, hpq, hnear⟩ := ih hrest hv
        · exact .inl (List.mem_cons_of_mem m hkept)
        · exact .inr ⟨p, q, List.infix_cons hpq, hnear⟩

/-- **What is skipped is near the chord of the items kept around it.** -/
theorem Simplified.bracketed (h : Simplified far t a l b r) :
    Bracketed (fun a b v => far a b v ≤ t) a l r b := by
  induction h with
  | stop hall => exact .last hall
  | split _ _ _ _ _ ihl ihr => exact ihl.append ihr

/-- **Each item kept is the first of its kind** after the item kept before
it. -/
inductive Leftmost (same : α → α → Prop) : List α → List α → Prop
  | nil {l : List α} : Leftmost same l []
  | cons {m : α} {gap l r : List α} : (∀ u ∈ gap, ¬same u m) → Leftmost same l r →
      Leftmost same (gap ++ m :: l) (m :: r)

variable {same : α → α → Prop}

theorem Leftmost.append (h : Leftmost same l r) (hl : ∀ u ∈ l, ¬same u m)
    (h' : Leftmost same post s) : Leftmost same (l ++ m :: post) (r ++ m :: s) := by
  induction h with
  | nil => exact .cons hl h'
  | cons hgap _ ih =>
    rw [List.append_assoc, List.cons_append, List.cons_append]
    exact .cons hgap (ih fun u hu => hl u (by simp [hu]))

/-- Items of one kind lie as far from a chord, so the first of the farthest
is the first of its kind. -/
theorem Simplified.leftmost (hsame : ∀ a b u v, same u v → far a b u = far a b v)
    (h : Simplified far t a l b r) : Leftmost same l r := by
  induction h with
  | stop => exact .nil
  | split hpre _ _ _ _ ihl ihr =>
    exact ihl.append (fun u hu hum => absurd (hsame _ _ _ _ hum) (hpre u hu).ne) ihr

end Lakehouse

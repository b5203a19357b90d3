import Lakehouse.Common.Simplification
import Lakehouse.Common.Sort
import Lakehouse.Vessel.Simplify
/-!
# The positions a simplification keeps

The work stack of `rdp_simplify` and its flags compute a relation that
knows of neither: between two positions kept, the first of those farthest
from their chord is kept where it is beyond the tolerance, and so on
between each two (`rdpLoop_keeps`). What the result is as a sequence is
read off it (`rdpSimplify_structure`).
-/

namespace Lakehouse

namespace Vessel

open OrderedFloat

variable {F : Type} [PyFloat F] [PyMath F]

/-- The positions that are kept: `rdp_simplify`, of the positions in place
of the coordinates. -/
def keptPositions (coordinates : List (Coordinate F)) (tolerance : F) : Except PyError (List ℕ) :=
  rdpSimplifyItems (List.range coordinates.length) coordinates tolerance

/-- The coordinates at some positions. -/
def coordinatesAt (coordinates : List (Coordinate F)) (positions : List ℕ) :
    List (Coordinate F) := positions.filterMap fun i => coordinates[i]?

variable [OrderedFloat F]

/-- How far a coordinate lies from the chord of two others. -/
noncomputable def chordDistance (start stop point : Coordinate F) : WithBot EReal :=
  match perpendicularDistance point start stop with
  | .ok distance => number distance
  | .error _ => ⊥

/-- The distance computed is the one from the chord. -/
theorem chordDistance_eq {point start stop : Coordinate F} {d : F}
    (h : perpendicularDistance point start stop = .ok d) :
    chordDistance start stop point = number d := by
  rw [chordDistance, h]

section Loop

variable (coordinates : List (Coordinate F)) (c : Coordinate F)

/-- The coordinate at a position; outside the track it does not matter
which. -/
def place (i : ℕ) : Coordinate F := coordinates.getD i c

/-- How far a position lies from the chord of two others. -/
noncomputable def distanceAt (i j k : ℕ) : WithBot EReal :=
  chordDistance (place coordinates c i) (place coordinates c j) (place coordinates c k)

/-- The positions between two others. -/
def between (i j : ℕ) : List ℕ := List.range' (i + 1) (j - (i + 1))

variable {coordinates} {c}

omit [PyFloat F] [PyMath F] [OrderedFloat F] in
/-- The positions between two. -/
theorem mem_between {i j k : ℕ} : k ∈ between i j ↔ i < k ∧ k < j := by
  rw [between, List.mem_range'_1]
  omega

omit [PyFloat F] [PyMath F] [OrderedFloat F] in
/-- A position between two others parts those between them. -/
theorem between_eq_append {i j m : ℕ} (hi : i < m) (hj : m < j) :
    between i j = between i m ++ m :: between m j := by
  have hlength : j - (i + 1) = (m - (i + 1)) + ((j - (m + 1)) + 1) := by omega
  have hstart : i + 1 + (m - (i + 1)) = m := by omega
  rw [between, between, between, hlength, ← List.range'_append_1, hstart, List.range'_succ]

omit [PyFloat F] [PyMath F] [OrderedFloat F] in
/-- The place of a position within the list. -/
theorem place_eq {i : ℕ} (h : i < coordinates.length) : place coordinates c i = coordinates[i] :=
  by rw [place, List.getD_eq_getElem?_getD, List.getElem?_eq_getElem h, Option.getD_some]

variable [SquareRoots F]

omit [PyFloat F] [PyMath F] [OrderedFloat F] [SquareRoots F] in
/-- The first of the farthest parts the positions into nearer ones and
ones that are no farther. -/
theorem firstGreatest_between {κ : Type} [LinearOrder κ] {order : ℕ → κ} {i j m : ℕ}
    (h : FirstGreatest order (between i j) m) : (i < m ∧ m < j) ∧
      (∀ u ∈ between i m, order u < order m) ∧ ∀ u ∈ between m j, order u ≤ order m := by
  have hm := mem_between.1 h.mem
  have hle := h.le
  obtain ⟨pre, post, heq, hpre, -⟩ := h
  refine ⟨hm, fun u hu => ?_, fun u hu => ?_⟩
  · have hu := mem_between.1 hu
    have hmem : u ∈ pre ++ m :: post := heq ▸ mem_between.2 ⟨hu.1, hu.2.trans hm.2⟩
    have hsorted : (pre ++ m :: post).Pairwise (· < ·) := by
      rw [← heq]
      exact List.pairwise_lt_range'
    obtain hbefore | hafter := List.mem_append.1 hmem
    · exact hpre u hbefore
    · obtain rfl | hafter := List.mem_cons.1 hafter
      · exact absurd hu.2 (lt_irrefl u)
      · have hlt := List.rel_of_pairwise_cons (List.pairwise_append.1 hsorted).2.1 hafter
        exact absurd hu.2 hlt.not_gt
  · have hu := mem_between.1 hu
    exact hle u (mem_between.2 ⟨hm.1.trans hu.1, hu.2⟩)

/-- **The search ends with the first of the farthest**, or none is beyond
where it started. -/
theorem foldlM_farther_scan {i j : ℕ} {indices : List ℕ}
    (h : ∀ k ∈ indices, k < coordinates.length) {found : ℤ × F}
    (hfound : indices.foldlM (farther coordinates (place coordinates c i) (place coordinates c j))
      (-1, PyFloat.ofInt (-1)) = .ok found) :
    (found = (-1, PyFloat.ofInt (-1)) ∧ ∀ k ∈ indices,
        distanceAt coordinates c i j k ≤ number (PyFloat.ofInt (-1) : F)) ∨
      ∃ k, FirstGreatest (distanceAt coordinates c i j) indices k ∧ found.1 = k ∧
        number found.2 = distanceAt coordinates c i j k ∧
        number (PyFloat.ofInt (-1) : F) < distanceAt coordinates c i j k := by
  induction indices using List.reverseRecOn generalizing found with
  | nil =>
    cases hfound
    exact .inl ⟨rfl, nofun⟩
  | append_singleton indices k ih =>
    rw [List.foldlM_append] at hfound
    obtain ⟨best, hbest, hfound⟩ := bind_eq_ok.1 hfound
    have hk : k < coordinates.length := h k (by simp)
    obtain ⟨d, hd⟩ := perpendicularDistance_isOk coordinates[k] (place coordinates c i)
      (place coordinates c j)
    have hfound : found = if PyFloat.lt best.2 d then ((k : ℤ), d) else best := by
      rw [List.foldlM_cons, farther, item_eq_ok hk, ok_bind, hd] at hfound
      exact (Except.ok.inj hfound).symm
    have horder : distanceAt coordinates c i j k = number d := by
      rw [distanceAt, place_eq hk]
      exact chordDistance_eq hd
    have hone : number (PyFloat.ofInt (-1) : F) ≠ ⊥ := by
      rw [number_ofInt (by decide)]
      exact WithBot.coe_ne_bot
    obtain ⟨rfl, hnone⟩ | ⟨m, hm, hbest₁, hbest₂, hbeyond⟩ :=
      ih (fun k hk => h k (List.mem_append_left _ hk)) hbest
    · rw [hfound]
      split_ifs with hlt
      · have hgreater := (lt_iff.1 hlt).2
        rw [← horder] at hgreater
        exact .inr ⟨k, ⟨indices, [], rfl, fun u hu => (hnone u hu).trans_lt hgreater, nofun⟩, rfl,
          horder.symm, hgreater⟩
      · have hle := (lt_eq_false hone).1 (Bool.eq_false_iff.2 hlt)
        rw [← horder] at hle
        refine .inl ⟨rfl, fun u hu => ?_⟩
        obtain hu | hu := List.mem_append.1 hu
        · exact hnone u hu
        · rwa [List.mem_singleton.1 hu]
    · have hnumber : number best.2 ≠ ⊥ := by
        rw [hbest₂]
        exact (hbeyond.trans_le' bot_le).ne'
      -- the farthest so far stays unless the next is strictly farther
      have hnext := hm.concat k
      unfold keepGreatest at hnext
      rw [hfound]
      split_ifs with hlt
      · have hgreater := (lt_iff.1 hlt).2
        rw [hbest₂, ← horder] at hgreater
        rw [if_pos hgreater] at hnext
        exact .inr ⟨k, hnext, rfl, horder.symm, hbeyond.trans hgreater⟩
      · have hle := (lt_eq_false hnumber).1 (Bool.eq_false_iff.2 hlt)
        rw [hbest₂, ← horder] at hle
        rw [if_neg hle.not_gt] at hnext
        exact .inr ⟨m, hnext, hbest₁, hbest₂, hbeyond⟩

/-- **One round**: whether the chord of two positions is split is whether
a position between them is beyond the tolerance. -/
theorem farthest_spec {i j : ℕ} (hij : i < j) (hj : j < coordinates.length) {t : F}
    (ht : number (PyMath.zero : F) < number t) {found : ℤ × F}
    (h : farthest coordinates i j = .ok found) :
    if PyFloat.lt t found.2 && decide (0 < found.1) then
      ∃ m : ℕ, found.1 = m ∧ (i < m ∧ m < j) ∧
        (∀ u ∈ between i m, distanceAt coordinates c i j u < distanceAt coordinates c i j m) ∧
        (∀ u ∈ between m j, distanceAt coordinates c i j u ≤ distanceAt coordinates c i j m) ∧
        number t < distanceAt coordinates c i j m
    else ∀ u ∈ between i j, distanceAt coordinates c i j u ≤ number t := by
  have hindices : ∀ k ∈ between i j, k < coordinates.length := fun k hk =>
    (mem_between.1 hk).2.trans hj
  have hi : i < coordinates.length := hij.trans hj
  rw [farthest, item_eq_ok hi, ok_bind, item_eq_ok hj, ok_bind, ← place_eq (c := c) hi,
    ← place_eq (c := c) hj] at h
  have hone : number (PyFloat.ofInt (-1) : F) < number t := neg_one_lt_zero.trans ht
  have htbot : number t ≠ ⊥ := (ht.trans_le' bot_le).ne'
  obtain ⟨rfl, hnone⟩ | ⟨m, hm, hfound₁, hfound₂, -⟩ := foldlM_farther_scan hindices h
  · rw [if_neg]
    · exact fun u hu => (hnone u hu).trans hone.le
    · rw [Bool.and_eq_true, decide_eq_true_eq]
      rintro ⟨-, hpos⟩
      exact absurd (show (0 : ℤ) < -1 from hpos) (by decide)
  · have hbetween := mem_between.1 hm.mem
    have hpos : 0 < found.1 := by
      rw [hfound₁]
      omega
    obtain ⟨-, hpre, hpost⟩ := firstGreatest_between hm
    split_ifs with hsplit
    · rw [Bool.and_eq_true] at hsplit
      have hfar := (lt_iff.1 hsplit.1).2
      rw [hfound₂] at hfar
      exact ⟨m, hfound₁, hbetween, hpre, hpost, hfar⟩
    · have hnear : PyFloat.lt t found.2 = false := by
        rw [Bool.and_eq_true, decide_eq_true_eq, not_and_or] at hsplit
        exact Bool.eq_false_iff.2 (hsplit.resolve_right (not_not.2 hpos))
      have hle := (lt_eq_false htbot).1 hnear
      rw [hfound₂] at hle
      exact fun u hu => (hm.le u hu).trans hle

/-- A position is among those the simplification of some chord keeps. -/
def KeptOf (coordinates : List (Coordinate F)) (c : Coordinate F) (t : F)
    (stack : List (ℕ × ℕ)) (k : ℕ) : Prop :=
  ∃ s ∈ stack, ∃ r, Simplified (distanceAt coordinates c) (number t) s.1 (between s.1 s.2) s.2 r ∧
    k ∈ r

variable {t : F} {i j m k : ℕ} {stack : List (ℕ × ℕ)}

omit [SquareRoots F] in
/-- A chord without a position beyond the tolerance keeps none. -/
theorem keptOf_stop (h : ∀ u ∈ between i j, distanceAt coordinates c i j u ≤ number t) :
    KeptOf coordinates c t ((i, j) :: stack) k ↔ KeptOf coordinates c t stack k := by
  constructor
  · rintro ⟨s, hs, r, hr, hk⟩
    obtain rfl | hs := List.mem_cons.1 hs
    · obtain rfl := hr.unique (.stop h)
      exact absurd hk List.not_mem_nil
    · exact ⟨s, hs, r, hr, hk⟩
  · rintro ⟨s, hs, hr⟩
    exact ⟨s, List.mem_cons_of_mem _ hs, hr⟩

omit [SquareRoots F] in
/-- A chord that is split keeps where it is split, and what its parts
keep. -/
theorem keptOf_split (hm : i < m ∧ m < j)
    (hpre : ∀ u ∈ between i m, distanceAt coordinates c i j u < distanceAt coordinates c i j m)
    (hpost : ∀ u ∈ between m j, distanceAt coordinates c i j u ≤ distanceAt coordinates c i j m)
    (hfar : number t < distanceAt coordinates c i j m) :
    KeptOf coordinates c t ((i, j) :: stack) k ↔
      k = m ∨ KeptOf coordinates c t ((m, j) :: (i, m) :: stack) k := by
  have hparts := between_eq_append hm.1 hm.2
  obtain ⟨r₁, hr₁⟩ := exists_simplified (distanceAt coordinates c) (number t) i (between i m) m
  obtain ⟨r₂, hr₂⟩ := exists_simplified (distanceAt coordinates c) (number t) m (between m j) j
  have hsplit : Simplified (distanceAt coordinates c) (number t) i (between i j) j (r₁ ++ m :: r₂) :=
    hparts ▸ .split hpre hpost hfar hr₁ hr₂
  constructor
  · rintro ⟨s, hs, r, hr, hk⟩
    obtain rfl | hs := List.mem_cons.1 hs
    · obtain rfl := hr.unique hsplit
      obtain hk | hk := List.mem_append.1 hk
      · exact .inr ⟨(i, m), by simp, r₁, hr₁, hk⟩
      · obtain rfl | hk := List.mem_cons.1 hk
        · exact .inl rfl
        · exact .inr ⟨(m, j), by simp, r₂, hr₂, hk⟩
    · exact .inr ⟨s, by simp [hs], r, hr, hk⟩
  · rintro (rfl | ⟨s, hs, r, hr, hk⟩)
    · exact ⟨(i, j), by simp, _, hsplit, by simp⟩
    · simp only [List.mem_cons] at hs
      obtain rfl | rfl | hs := hs
      · obtain rfl := hr.unique hr₂
        exact ⟨(i, j), by simp, _, hsplit, by simp [hk]⟩
      · obtain rfl := hr.unique hr₁
        exact ⟨(i, j), by simp, _, hsplit, by simp [hk]⟩
      · exact ⟨s, by simp [hs], r, hr, hk⟩

/-- **What the loop keeps**: the flags it was given, and those of the
chords on its stack. -/
theorem rdpLoop_keeps (ht : number (PyMath.zero : F) < number t) {rounds : ℕ}
    {keep keep' : List Bool} (hstack : ∀ s ∈ stack, s.1 < s.2 ∧ s.2 < coordinates.length)
    (hlength : keep.length = coordinates.length)
    (h : rdpLoop coordinates t rounds stack keep = .ok keep') :
    keep'.length = coordinates.length ∧ ∀ k < coordinates.length,
      (keep'[k]? = some true ↔ keep[k]? = some true ∨ KeptOf coordinates c t stack k) := by
  induction rounds generalizing stack keep with
  | zero =>
    cases stack with
    | nil =>
      rw [rdpLoop] at h
      cases h
      exact ⟨hlength, fun k _ => by simp [KeptOf]⟩
    | cons s stack => cases h
  | succ rounds ih =>
    cases stack with
    | nil =>
      rw [rdpLoop] at h
      cases h
      exact ⟨hlength, fun k _ => by simp [KeptOf]⟩
    | cons s stack =>
      obtain ⟨i, j⟩ := s
      obtain ⟨⟨hij, hj⟩, hrest⟩ := List.forall_mem_cons.1 hstack
      simp only at hij hj
      obtain ⟨⟨index, distance⟩, hfound, h⟩ := bind_eq_ok.1 h
      have hspec := farthest_spec (c := c) hij hj ht hfound
      simp only at h hspec
      split_ifs at h hspec with hsplit
      · obtain ⟨m, rfl, hm, hpre, hpost, hfar⟩ := hspec
        rw [Int.toNat_natCast] at h
        have hstack' : ∀ s ∈ (m, j) :: (i, m) :: stack, s.1 < s.2 ∧ s.2 < coordinates.length :=
          List.forall_mem_cons.2 ⟨⟨hm.2, hj⟩,
            List.forall_mem_cons.2 ⟨⟨hm.1, hm.2.trans hj⟩, hrest⟩⟩
        obtain ⟨hlength', hkeep⟩ := ih hstack' (by rw [List.length_set, hlength]) h
        refine ⟨hlength', fun k hk => ?_⟩
        rw [hkeep k hk, keptOf_split hm hpre hpost hfar, List.getElem?_set]
        by_cases hkm : m = k
        · subst hkm
          simp [hlength, hk]
        · simp [hkm, Ne.symm hkm]
      · obtain ⟨hlength', hkeep⟩ := ih hrest hlength h
        refine ⟨hlength', fun k hk => ?_⟩
        rw [hkeep k hk, keptOf_stop hspec]

/-! ## The result -/

omit [PyFloat F] [PyMath F] [OrderedFloat F] [SquareRoots F] in
/-- Keeping commutes with a map. -/
theorem kept_map {α β : Type} (f : α → β) (items : List α) (keep : List Bool) :
    kept (items.map f) keep = (kept items keep).map f := by
  rw [kept, kept, List.zip_map_left, List.filter_map, List.map_map, List.map_map]
  rfl

omit [PyFloat F] [PyMath F] [OrderedFloat F] [SquareRoots F] in
/-- What is kept is a part of the list, in order. -/
theorem kept_sublist {α : Type} (items : List α) (keep : List Bool) :
    (kept items keep).Sublist items := by
  induction items generalizing keep with
  | nil => exact .slnil
  | cons a items ih =>
    cases keep with
    | nil => exact List.nil_sublist _
    | cons b keep =>
      cases b with
      | true => exact (ih keep).cons_cons a
      | false => exact (ih keep).cons a

omit [PyFloat F] [PyMath F] [OrderedFloat F] [SquareRoots F] in
/-- The flags say which positions are kept. -/
theorem mem_kept_range {n : ℕ} {keep : List Bool} (h : keep.length = n) :
    k ∈ kept (List.range n) keep ↔ keep[k]? = some true := by
  have hzip : k ∈ kept (List.range n) keep ↔ (k, true) ∈ (List.range n).zip keep := by
    simp [kept]
  rw [hzip, List.mem_iff_getElem?]
  constructor
  · rintro ⟨i, hi⟩
    obtain ⟨hrange, hkeep⟩ := List.getElem?_zip_eq_some.1 hi
    obtain ⟨hi, rfl⟩ := List.getElem?_eq_some_iff.1 hrange
    rwa [List.getElem_range]
  · intro hk
    obtain ⟨hlt, -⟩ := List.getElem?_eq_some_iff.1 hk
    refine ⟨k, List.getElem?_zip_eq_some.2 ⟨?_, hk⟩⟩
    rw [List.getElem?_range (h ▸ hlt)]

omit [PyMath F] [SquareRoots F] in
/-- A tolerance that is accepted is positive. -/
theorem Tolerable.pos (h : Tolerable t) : number (PyMath.zero : F) < number t :=
  pos_of_not_le (number_of_isFinite h.2) h.1

/-- **The positions kept**: the ends, and those of the simplification
between them. -/
theorem keptPositions_eq (ht : Tolerable t) (hn : 2 < coordinates.length) (c : Coordinate F) :
    ∃ r, Simplified (distanceAt coordinates c) (number t) 0 (between 0 (coordinates.length - 1))
        (coordinates.length - 1) r ∧
      keptPositions coordinates t = .ok (0 :: (r ++ [coordinates.length - 1])) := by
  obtain ⟨r, hr⟩ := exists_simplified (distanceAt coordinates c) (number t) 0
    (between 0 (coordinates.length - 1)) (coordinates.length - 1)
  refine ⟨r, hr, ?_⟩
  have hstack : ∀ s ∈ [(0, coordinates.length - 1)], s.1 < s.2 ∧ s.2 < coordinates.length := by
    intro s hs
    rw [List.mem_singleton.1 hs]
    simp only
    omega
  have hrounds : roundsOf [(0, coordinates.length - 1)] ≤ 2 * coordinates.length := by
    simp only [roundsOf, List.map_cons, List.map_nil, List.sum_cons, List.sum_nil]
    omega
  -- the flags set before the loop are those of the ends
  have hends : ∀ k, (((List.replicate coordinates.length false).set 0 true).set
      (coordinates.length - 1) true)[k]? = some true ↔ k = 0 ∨ k = coordinates.length - 1 := by
    intro k
    simp only [List.getElem?_set, List.length_set, List.length_replicate, List.getElem?_replicate]
    split_ifs
    all_goals simp_all
    all_goals omega
  obtain ⟨keep, hkeep, -⟩ := rdpLoop_isOk t hstack hrounds ((hends 0).2 (.inl rfl))
  obtain ⟨hlength, hflags⟩ := rdpLoop_keeps (c := c) ht.pos hstack (by simp) hkeep
  have hmem : ∀ k ∈ r, 0 < k ∧ k < coordinates.length - 1 := fun k hk =>
    mem_between.1 (hr.sublist.subset hk)
  have hsorted : (0 :: (r ++ [coordinates.length - 1])).Pairwise (· < ·) := by
    rw [List.pairwise_cons, List.pairwise_append]
    refine ⟨fun k hk => ?_, List.Pairwise.sublist hr.sublist List.pairwise_lt_range', List.pairwise_singleton _ _,
      fun k hk l hl => ?_⟩
    · obtain hk | hk := List.mem_append.1 hk
      · exact (hmem k hk).1
      · rw [List.mem_singleton.1 hk]
        omega
    · rw [List.mem_singleton.1 hl]
      exact (hmem k hk).2
  -- both lists are sorted, so it is enough that they have the same positions
  have hkept : kept (List.range coordinates.length) keep = 0 :: (r ++ [coordinates.length - 1]) := by
    have hflagged := List.pairwise_lt_range.sublist (kept_sublist (List.range coordinates.length) keep)
    refine eq_of_mem_iff id hflagged hsorted fun k => ?_
    rw [mem_kept_range hlength, List.mem_cons, List.mem_append, List.mem_singleton]
    constructor
    · intro hk
      have hlt : k < coordinates.length := hlength ▸ (List.getElem?_eq_some_iff.1 hk).1
      obtain (rfl | rfl) | ⟨s, hs, r', hr', hk⟩ := ((hflags k hlt).1 hk).imp_left (hends k).1
      · exact .inl rfl
      · exact .inr (.inr rfl)
      · rw [List.mem_singleton.1 hs] at hr'
        exact .inr (.inl (hr'.unique hr ▸ hk))
    · rintro (rfl | hk | rfl)
      · exact (hflags _ (by omega)).2 (.inl ((hends _).2 (.inl rfl)))
      · have hlt : k < coordinates.length := by
          have hk := hmem k hk
          omega
        exact (hflags k hlt).2 (.inr ⟨_, List.mem_singleton_self _, r, hr, hk⟩)
      · exact (hflags _ (by omega)).2 (.inl ((hends _).2 (.inr rfl)))
  rw [keptPositions, rdpSimplifyItems, if_neg (by simp [ht.1, ht.2]), if_neg (by omega)]
  simp only [hkeep, ok_bind, pure_eq_ok, hkept]

end Loop

end Vessel

end Lakehouse

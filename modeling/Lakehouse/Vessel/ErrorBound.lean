import Lakehouse.Vessel.RdpStructure
import Mathlib.Tactic.FieldSimp
/-!
# How far a simplified track strays

The distance RDP measures is that from the line through two coordinates,
not from the segment between them (`perpendicularDistance_spec`). Over
exact arithmetic a coordinate that is skipped is near the line of the two
kept around it (`rdpSimplify_near`), and near the track itself where it is
abeam of their segment; a track that overshoots and comes back may stray
from what is returned (`not_forall_near_polyline`).
-/

namespace Lakehouse

namespace Vessel

open OrderedFloat

noncomputable section

/-- The Euclidean distance. -/
def euclid (p q : Coordinate ℝ) : ℝ := Real.sqrt ((p.1 - q.1) ^ 2 + (p.2 - q.2) ^ 2)

/-- The place on the line of two coordinates, in parts of the way from one to
the other. -/
def along (a b : Coordinate ℝ) (s : ℝ) : Coordinate ℝ :=
  (a.1 + s * (b.1 - a.1), a.2 + s * (b.2 - a.2))

/-- The way from one coordinate to another, along the way to a third. -/
def advance (a b v : Coordinate ℝ) : ℝ :=
  (v.1 - a.1) * (b.1 - a.1) + (v.2 - a.2) * (b.2 - a.2)

/-- Neither short of a segment nor past its end. -/
def Abeam (a b v : Coordinate ℝ) : Prop := 0 ≤ advance a b v ∧ advance a b v ≤ advance a b b

/-- **Near the line of two coordinates**, and near the segment between them
where abeam of it. -/
def NearLine (t : ℝ) (a b v : Coordinate ℝ) : Prop :=
  ∃ s, euclid v (along a b s) ≤ t ∧ (Abeam a b v → 0 ≤ s ∧ s ≤ 1)

end

variable {a b v : Coordinate ℝ} {t : ℝ}

/-- **What is measured** is the distance from the line, at the foot of the
perpendicular; from the one coordinate where the two coincide. -/
theorem perpendicularDistance_spec (a b v : Coordinate ℝ) :
    ∃ s, perpendicularDistance v a b = .ok (euclid v (along a b s)) ∧
      (Abeam a b v → 0 ≤ s ∧ s ≤ 1) := by
  have hsum : advance a b b = (b.1 - a.1) * (b.1 - a.1) + (b.2 - a.2) * (b.2 - a.2) := rfl
  have hnonneg : 0 ≤ advance a b b := by
    rw [hsum]
    exact add_nonneg (mul_self_nonneg _) (mul_self_nonneg _)
  by_cases hzero : advance a b b = 0
  · refine ⟨0, ?_, fun _ => ⟨le_rfl, zero_le_one⟩⟩
    rw [perpendicularDistance, if_pos (by simpa [hsum] using hzero)]
    simp [euclid, along]
  · refine ⟨advance a b v / advance a b b, ?_, fun habeam => ?_⟩
    · have hsquare : (euclid v (along a b (advance a b v / advance a b b))) =
          Real.sqrt (((b.2 - a.2) * v.1 - (b.1 - a.1) * v.2 + b.1 * a.2 - b.2 * a.1) ^ 2 /
            advance a b b) := by
        rw [euclid]
        congr 1
        simp only [along]
        field_simp
        simp only [advance]
        ring
      have hroot : Real.sqrt (advance a b b) ≠ 0 :=
        Real.sqrt_ne_zero'.2 (lt_of_le_of_ne hnonneg (Ne.symm hzero))
      rw [hsquare, Real.sqrt_div (sq_nonneg _), Real.sqrt_sq_eq_abs, perpendicularDistance,
        if_neg (by simpa [hsum] using hzero), PyMath.squareRoot,
        if_neg (by simpa [hsum, not_lt] using hnonneg)]
      exact if_neg (by simpa [hsum] using hroot)
    · have hpos : 0 < advance a b b := lt_of_le_of_ne hnonneg (Ne.symm hzero)
      exact ⟨div_nonneg habeam.1 hnonneg, (div_le_one hpos).2 habeam.2⟩

/-- A coordinate no farther than the tolerance, as it is measured. -/
theorem nearLine_of_le (h : chordDistance a b v ≤ number t) : NearLine t a b v := by
  obtain ⟨s, hs, habeam⟩ := perpendicularDistance_spec a b v
  rw [chordDistance_eq hs, Reals.number_le] at h
  exact ⟨s, h, habeam⟩

/-- **What is skipped is near the line of what is kept around it.** A
coordinate is kept, or stands between two kept in a row and is within the
tolerance of the line through the two; of the segment itself, where abeam of
it. -/
theorem rdpSimplify_near (ht : 0 < t) (coordinates : List (Coordinate ℝ)) :
    ∃ positions, keptPositions coordinates t = .ok positions ∧
      rdpSimplify coordinates t = .ok (coordinatesAt coordinates positions) ∧
      ∀ i v, coordinates[i]? = some v → i ∈ positions ∨
        ∃ j k a b, [j, k] <:+: positions ∧ (j < i ∧ i < k) ∧
          coordinates[j]? = some a ∧ coordinates[k]? = some b ∧ NearLine t a b v := by
  obtain ⟨positions, hpositions, -, -⟩ := keptPositions_ends (tolerable_iff.2 ht) coordinates
  refine ⟨positions, hpositions, by rw [rdpSimplify_eq_map, hpositions]; rfl, fun i v hv => ?_⟩
  obtain ⟨hi, rfl⟩ := List.getElem?_eq_some_iff.1 hv
  by_cases hn : coordinates.length ≤ 2
  · rw [keptPositions, rdpSimplifyItems, if_neg (by simp [ht]), if_pos hn] at hpositions
    cases hpositions
    exact .inl (List.mem_range.2 hi)
  · obtain ⟨r, hr, heq⟩ := keptPositions_eq (tolerable_iff.2 ht) (not_le.1 hn) (0, 0)
    rw [heq] at hpositions
    cases hpositions
    have hrange : i ∈ List.range coordinates.length := List.mem_range.2 hi
    rw [range_eq_between (not_le.1 hn)] at hrange
    have hsorted := range_eq_between (not_le.1 hn) ▸ List.pairwise_lt_range
    simp only [List.mem_cons, List.mem_append, List.not_mem_nil, or_false] at hrange ⊢
    obtain rfl | hbetween | rfl := hrange
    · exact .inl (.inl rfl)
    -- a point that is not kept was dropped with a chord it is near to
    · obtain hkept | ⟨j, k, hjk, ⟨hji, hik⟩, hnear⟩ := hr.bracketed.kept_or hsorted hbetween
      · exact .inl (.inr (.inl hkept))
      · have hk : k < coordinates.length := by
          have hmem := hjk.subset (List.mem_cons_of_mem j (List.mem_singleton_self k))
          exact List.mem_range.1 (range_eq_between (not_le.1 hn) ▸
            ((hr.sublist.append (.refl _)).cons_cons 0).subset hmem)
        have hj : j < coordinates.length := (hji.trans hik).trans hk
        refine .inr ⟨j, k, coordinates[j], coordinates[k], hjk, ⟨hji, hik⟩,
          List.getElem?_eq_getElem hj, List.getElem?_eq_getElem hk, nearLine_of_le ?_⟩
        rwa [distanceAt, place_eq hi, place_eq hj, place_eq hk] at hnear
    · exact .inl (.inr (.inr rfl))

/-! ### A track that overshoots -/

/-- A point of the track through some vertices. -/
def OnPolyline (vertices : List (Coordinate ℝ)) (p : Coordinate ℝ) : Prop :=
  vertices = [p] ∨
    ∃ a b, [a, b] <:+: vertices ∧ ∃ s : ℝ, (0 ≤ s ∧ s ≤ 1) ∧ p = along a b s

/-- Ten degrees out, and nine back. -/
def overshoot : List (Coordinate ℝ) := [(0, 0), (10, 0), (1, 0)]

/-- Where the track turns is on the line of its ends. -/
theorem rdpSimplify_overshoot : rdpSimplify overshoot 1 = .ok [(0, 0), (1, 0)] := by
  obtain ⟨r, hr, heq⟩ :=
    rdpSimplify_eq_ok (tolerable_iff.2 one_pos) ((0, 0) : Coordinate ℝ) (1, 0) [(10, 0)]
  have hdistance : perpendicularDistance ((10, 0) : Coordinate ℝ) (0, 0) (1, 0) = .ok 0 := by
    norm_num [perpendicularDistance, PyMath.squareRoot, PyMath.divide]
  have hstop : Simplified chordDistance (number (1 : ℝ)) ((0, 0) : Coordinate ℝ) [(10, 0)] (1, 0)
      [] := by
    refine .stop fun v hv => ?_
    rw [List.mem_singleton.1 hv, chordDistance_eq hdistance, Reals.number_le]
    exact zero_le_one
  rw [hr.unique hstop] at heq
  exact heq

/-- Where the track turns is kept or is on the line of two places kept. -/
theorem rdpSimplify_near_overshoot : ∃ positions, keptPositions overshoot 1 = .ok positions ∧
    (1 ∈ positions ∨ ∃ j k a b, [j, k] <:+: positions ∧ (j < 1 ∧ 1 < k) ∧
      overshoot[j]? = some a ∧ overshoot[k]? = some b ∧ NearLine 1 a b (10, 0)) := by
  obtain ⟨positions, hpositions, -, hnear⟩ := rdpSimplify_near one_pos overshoot
  exact ⟨positions, hpositions, hnear 1 (10, 0) rfl⟩

/-- **The track returned may be far off**: the place it turned at is nine
degrees from it. -/
theorem not_forall_near_polyline :
    ¬∀ (coordinates : List (Coordinate ℝ)) (t : ℝ), 0 < t → ∃ simplified,
      rdpSimplify coordinates t = .ok simplified ∧
        ∀ v ∈ coordinates, ∃ p, OnPolyline simplified p ∧ euclid v p ≤ t := by
  intro h
  obtain ⟨simplified, hsimplified, hnear⟩ := h overshoot 1 one_pos
  rw [rdpSimplify_overshoot] at hsimplified
  cases hsimplified
  obtain ⟨p, hp, hdistance⟩ := hnear (10, 0) (by simp [overshoot])
  obtain hsingle | ⟨a, b, hab, s, ⟨-, hs⟩, rfl⟩ := hp
  · exact absurd (congrArg List.length hsingle) (by simp)
  · have hpair : [a, b] = [(0, 0), (1, 0)] := hab.eq_of_length rfl
    obtain ⟨rfl, rfl⟩ : a = (0, 0) ∧ b = (1, 0) := by simpa using hpair
    have hten : euclid (10, 0) (along (0, 0) (1, 0) s) = |10 - s| := by
      rw [← Real.sqrt_sq_eq_abs, euclid]
      simp [along]
    rw [hten, abs_le] at hdistance
    linarith [hdistance.2]

end Vessel

end Lakehouse

import Lakehouse.Vessel.Crossing
import Lakehouse.Vessel.Endpoints
/-!
# A simplified track does not cross itself

Over exact arithmetic the coordinates of the points found are those RDP
kept (`map_coordinate_matchPoints`), at the tolerance of the retry, and
the line taken does not cross itself; a track that is left as it is crosses
itself only where it did.
-/

namespace Lakehouse

namespace Vessel

open OrderedFloat

variable {points : List (TrackPoint ℝ)} {t : ℝ}

theorem sameCoordinate_iff {a b : Coordinate ℝ} : sameCoordinate a b = true ↔ a = b := by
  rw [sameCoordinate, Bool.and_eq_true, Reals.eq_iff, Reals.eq_iff, Prod.ext_iff]

/-- The first point at a place the track was at. -/
theorem exists_first {c : Coordinate ℝ} (h : c ∈ points.map TrackPoint.coordinate) :
    ∃ gap p rest, points = gap ++ p :: rest ∧ p.coordinate = c ∧
      c ∉ gap.map TrackPoint.coordinate := by
  obtain ⟨q, hq, rfl⟩ := List.mem_map.1 h
  have hfind : (points.find? fun p => sameCoordinate p.coordinate q.coordinate).isSome = true :=
    List.find?_isSome.2 ⟨q, hq, sameCoordinate_iff.2 rfl⟩
  obtain ⟨p, hp⟩ := Option.isSome_iff_exists.1 hfind
  obtain ⟨hsame, gap, rest, hpoints, hgap⟩ := List.find?_eq_some_iff_append.1 hp
  refine ⟨gap, p, rest, hpoints, sameCoordinate_iff.1 hsame, fun hmem => ?_⟩
  obtain ⟨u, hu, heq⟩ := List.mem_map.1 hmem
  have hnot := hgap u hu
  rw [sameCoordinate_iff.2 heq] at hnot
  cases hnot

/-- **The search finds all of a part of the track.** -/
theorem map_coordinate_matchPoints {line : List (Coordinate ℝ)}
    (h : line.Sublist (points.map TrackPoint.coordinate)) :
    (matchPoints line points).map TrackPoint.coordinate = line := by
  induction line generalizing points with
  | nil => rfl
  | cons c line ih =>
    obtain ⟨gap, p, rest, rfl, rfl, hgap⟩ := exists_first (h.subset List.mem_cons_self)
    have hskip : ∀ u ∈ gap, sameCoordinate u.coordinate p.coordinate = false := by
      intro u hu
      rw [← Bool.not_eq_true, sameCoordinate_iff]
      rintro heq
      exact hgap (heq ▸ List.mem_map_of_mem hu)
    have hrest : line.Sublist (rest.map TrackPoint.coordinate) := by
      rw [List.map_append, List.sublist_append_iff] at h
      obtain ⟨l₁, l₂, heq, h₁, h₂⟩ := h
      cases l₁ with
      | nil =>
        rw [List.nil_append] at heq
        rw [← heq, List.map_cons] at h₂
        exact List.cons_sublist_cons.1 h₂
      | cons a l₁ =>
        rw [List.cons_append, List.cons.injEq] at heq
        exact absurd (h₁.subset List.mem_cons_self) (heq.1 ▸ hgap)
    rw [matchPoints_append hskip (sameCoordinate_iff.2 rfl), List.map_cons, ih hrest]

theorem halved_eq (t : ℝ) (k : ℕ) : halved t k = t / 2 ^ k := by
  induction k with
  | zero => rw [pow_zero, div_one, halved, Function.iterate_zero_apply]
  | succ k ih =>
    rw [halved, Function.iterate_succ_apply', ← halved, ih, pow_succ, ← div_div]
    norm_num

/-- The retries end. -/
theorem exists_simplifyLoop (ht : 0 < t) (points : List (TrackPoint ℝ)) (retries : ℕ) :
    ∃ simplified, simplifyLoop points retries t = .ok simplified := by
  induction retries generalizing t with
  | zero => exact ⟨points, rfl⟩
  | succ retries ih =>
    obtain ⟨line, hline, -⟩ :=
      exists_rdpSimplify (tolerable_iff.2 ht) (points.map TrackPoint.coordinate)
    rw [simplifyLoop, hline, ok_bind]
    split_ifs
    · exact ⟨_, rfl⟩
    · exact ih (t := PyFloat.div t (PyFloat.ofInt 2)) (by norm_num [ht])

/-- A line that is taken does not cross itself. -/
theorem Taken.not_crossesItself {line : List (Coordinate ℝ)} (h : Taken line) :
    ¬CrossesItself line := by
  refine Vessel.not_crossesItself ?_
  obtain hshort | hsimple := h
  · rw [isSimpleLine, if_pos (by omega)]
  · exact hsimple

/-- **The topology is kept.** What is returned is what RDP makes of the track
at the tolerance of some retry and does not cross itself, or is the track
itself; so a track that does not cross itself never yields one that does. -/
theorem simplifyPreservingTopology_spec (ht : 0 < t) (points : List (TrackPoint ℝ)) :
    ∃ simplified, simplifyPreservingTopology points t = .ok simplified ∧
      ((∃ k < maxSimplifyRetries, rdpSimplify (points.map TrackPoint.coordinate) (t / 2 ^ k) =
          .ok (simplified.map TrackPoint.coordinate) ∧
        ¬CrossesItself (simplified.map TrackPoint.coordinate)) ∨ simplified = points) ∧
      (¬CrossesItself (points.map TrackPoint.coordinate) →
        ¬CrossesItself (simplified.map TrackPoint.coordinate)) := by
  rw [simplifyPreservingTopology]
  split_ifs with hn
  · exact ⟨points, rfl, .inr rfl, id⟩
  · obtain ⟨simplified, hsimplified⟩ := exists_simplifyLoop ht points maxSimplifyRetries
    obtain ⟨k, -, -, ⟨-, rfl⟩ | ⟨hk, line, hline, htaken, rfl⟩⟩ := simplifyLoop_eq_ok.1 hsimplified
    · exact ⟨simplified, hsimplified, .inr rfl, id⟩
    · obtain ⟨line', hline', hsub⟩ := exists_rdpSimplify (tolerable_of_rdpSimplify hline)
        (points.map TrackPoint.coordinate)
      obtain rfl := Except.ok.inj (hline.symm.trans hline')
      rw [halved_eq] at hline
      refine ⟨_, hsimplified, ?_, ?_⟩
      · rw [map_coordinate_matchPoints hsub]
        exact .inl ⟨k, hk, hline, htaken.not_crossesItself⟩
      · rw [map_coordinate_matchPoints hsub]
        exact fun _ => htaken.not_crossesItself

/-! ### A headland -/

/-- How far a place lies from a chord of a known length. -/
theorem chordDistance_of_length {a b : Coordinate ℝ} {d : ℝ} (hd : 0 < d)
    (hlength : (b.1 - a.1) * (b.1 - a.1) + (b.2 - a.2) * (b.2 - a.2) = d * d) (v : Coordinate ℝ) :
    chordDistance a b v = number
      (|(b.2 - a.2) * v.1 - (b.1 - a.1) * v.2 + b.1 * a.2 - b.2 * a.1| / d) := by
  have hroot : PyMath.squareRoot (d * d) = .ok d := by
    rw [PyMath.squareRoot, if_neg (by simpa using mul_self_nonneg d), Reals.sqrt_eq,
      Real.sqrt_mul_self hd.le]
  refine chordDistance_eq ?_
  rw [perpendicularDistance, if_neg (by simpa [hlength] using hd.ne')]
  simp only [Reals.sub_eq, Reals.mul_eq, Reals.add_eq, Reals.abs_eq, hlength, hroot, ok_bind]
  rw [PyMath.divide, if_neg (by simpa using hd.ne'), Reals.div_eq]

/-- A place of whole degrees. -/
def whole (longitude latitude : ℤ) : Coordinate ℝ := (longitude, latitude)

/-- East around a headland, south, and back north beneath the headland. -/
def detour : List (TrackPoint ℝ) :=
  [seen 0 (whole 0 0), seen 1 (whole 4 4), seen 2 (whole 8 0), seen 3 (whole 8 (-15)),
    seen 4 (whole 4 3)]

/-- Without the headland the track crosses itself. -/
def cutOff : List (Coordinate ℝ) := [whole 0 0, whole 8 0, whole 8 (-15), whole 4 3]

/-- The places of the track. -/
theorem coordinates_detour : detour.map TrackPoint.coordinate =
    [(0, 0), (4, 4), (8, 0), (8, -15), (4, 3)] := by
  norm_num [detour, seen, whole, TrackPoint.coordinate]

/-- The places of the shorter track. -/
theorem cutOff_eq : cutOff = [(0, 0), (8, 0), (8, -15), (4, 3)] := by
  norm_num [cutOff, whole]

/-- The first tolerance cuts the headland off. -/
theorem rdpSimplify_detour : rdpSimplify (detour.map TrackPoint.coordinate) 5 = .ok cutOff := by
  obtain ⟨r, hr, heq⟩ := rdpSimplify_eq_ok (tolerable_iff.2 (by norm_num : (0 : ℝ) < 5))
    ((0, 0) : Coordinate ℝ) (4, 3) ([(4, 4), (8, 0)] ++ (8, -15) :: [])
  have hends : ∀ v, chordDistance ((0, 0) : Coordinate ℝ) (4, 3) v =
      number (|3 * v.1 - 4 * v.2| / 5) := by
    intro v
    rw [chordDistance_of_length (d := 5) (by norm_num) (by norm_num)]
    norm_num
  have hsouth : ∀ v, chordDistance ((0, 0) : Coordinate ℝ) (8, -15) v =
      number (|-(15 * v.1) - 8 * v.2| / 17) := by
    intro v
    rw [chordDistance_of_length (d := 17) (by norm_num) (by norm_num)]
    norm_num
  have heast : ∀ v, chordDistance ((0, 0) : Coordinate ℝ) (8, 0) v =
      number (|-(8 * v.2)| / 8) := by
    intro v
    rw [chordDistance_of_length (d := 8) (by norm_num) (by norm_num)]
    norm_num
  have hkept : Simplified chordDistance (number (5 : ℝ)) ((0, 0) : Coordinate ℝ)
      ([(4, 4), (8, 0)] ++ (8, -15) :: []) (4, 3) (([] ++ (8, 0) :: []) ++ (8, -15) :: []) := by
    have hfirst : ∀ v ∈ [((4, 4) : Coordinate ℝ), (8, 0)], chordDistance ((0, 0) : Coordinate ℝ)
        (4, 3) v < chordDistance ((0, 0) : Coordinate ℝ) (4, 3) (8, -15) := by
      simp only [hends, Reals.number_lt, List.forall_mem_cons, List.not_mem_nil, false_implies,
        implies_true, and_true]
      norm_num
    have hsecond : ∀ v ∈ [((4, 4) : Coordinate ℝ)], chordDistance ((0, 0) : Coordinate ℝ) (8, -15) v <
        chordDistance ((0, 0) : Coordinate ℝ) (8, -15) (8, 0) := by
      simp only [hsouth, Reals.number_lt, List.forall_mem_singleton]
      norm_num
    have hheadland : ∀ v ∈ [((4, 4) : Coordinate ℝ)],
        chordDistance ((0, 0) : Coordinate ℝ) (8, 0) v ≤ number (5 : ℝ) := by
      simp only [heast, Reals.number_le, List.forall_mem_singleton]
      norm_num
    refine .split hfirst (List.forall_mem_nil _) ?_ (.split hsecond
      (List.forall_mem_nil _) ?_ (.stop hheadland) (.stop (List.forall_mem_nil _)))
      (.stop (List.forall_mem_nil _))
    · rw [hends, Reals.number_lt]
      norm_num
    · rw [hsouth, Reals.number_lt]
      norm_num
  rw [hr.unique hkept] at heq
  rw [coordinates_detour, cutOff_eq]
  exact heq

/-- The line of the first tolerance is turned down: its legs east and north
cross. -/
theorem crossesItself_cutOff : CrossesItself cutOff := by
  rw [cutOff_eq]
  refine ⟨((0, 0), (8, 0)), ((8, -15), (4, 3)), ⟨0, 2, le_rfl, ⟨rfl, rfl⟩, rfl, rfl⟩, ?_⟩
  norm_num [CrossProperly, orientation]

/-- The track itself does not cross. -/
theorem not_crossesItself_detour : ¬CrossesItself (detour.map TrackPoint.coordinate) := by
  have hlt : ∀ x y : ℝ, PyFloat.lt x y = decide (x < y) := fun _ _ => rfl
  refine not_crossesItself ?_
  rw [coordinates_detour]
  norm_num [hlt, isSimpleLine, noneIntersect, segmentsIntersect, orientation]

/-- RDP would cut a headland off and make the track cross itself; the track
returned keeps it. -/
theorem simplifyPreservingTopology_detour : CrossesItself cutOff ∧
    rdpSimplify (detour.map TrackPoint.coordinate) 5 = .ok cutOff ∧ ∃ simplified,
      simplifyPreservingTopology detour 5 = .ok simplified ∧
        ¬CrossesItself (simplified.map TrackPoint.coordinate) := by
  obtain ⟨simplified, hsimplified, -, hsimple⟩ :=
    simplifyPreservingTopology_spec (by norm_num : (0 : ℝ) < 5) detour
  exact ⟨crossesItself_cutOff, rdpSimplify_detour, simplified, hsimplified,
    hsimple not_crossesItself_detour⟩

end Vessel

end Lakehouse

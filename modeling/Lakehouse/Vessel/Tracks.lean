import Lakehouse.Vessel.Trajectory
/-!
# The tracks of valid observations

Rows that hold what a decoded row holds pass every check a second time:
each track is the points of one MMSI, and the segments of the reference
path are those of `vesselSegments`.
-/

namespace Lakehouse

namespace Vessel

variable {F : Type} [PyFloat F] [PyMath F] {L : Library}

/-- The point of an observation. -/
def Observation.point (o : Observation F) : TrackPoint F :=
  ⟨o.occurredAt, o.longitude, o.latitude, o.eventId⟩

/-- The points of one vessel, as the rows come. -/
def pointsOf (os : List (Observation F)) (mmsi : Text) : List (TrackPoint F) :=
  (os.filter fun o => o.mmsi = mmsi).map Observation.point

/-- The points of one vessel, in order. -/
def orderedTrack (os : List (Observation F)) (mmsi : Text) : List (TrackPoint F) :=
  sortBy TrackPoint.order (pointsOf os mmsi)

/-- The segments of one vessel. -/
def vesselSegments (gapThreshold : ℤ) (os : List (Observation F)) (mmsi : Text) :
    List (List (TrackPoint F)) :=
  (deduplicated (orderedTrack os mmsi)).splitBy fun p q => !exceedsGap gapThreshold p q

variable {o : Observation F} {os : List (Observation F)}

omit [PyFloat F] [PyMath F] in
/-- The points of a vessel are those of its observations. -/
theorem mem_pointsOf {mmsi : Text} {p : TrackPoint F} :
    p ∈ pointsOf os mmsi ↔ ∃ o ∈ os, o.mmsi = mmsi ∧ o.point = p := by
  simp [pointsOf, and_assoc]

section Rows

variable [LawfulFloat F]

omit [PyMath F] in
/-- A valid observation has coordinates on the globe. -/
theorem Observation.Valid.coordinates (h : o.Valid L) :
    validateCoordinates o.latitude o.longitude = .ok () :=
  validateCoordinates_eq_ok.2 ⟨(within_iff (by decide) (by decide) h.motion.latitude.1).2
    h.motion.latitude, (within_iff (by decide) (by decide) h.motion.longitude.1).2
    h.motion.longitude⟩

omit [PyMath F] in
/-- A valid observation has a normalized MMSI. -/
theorem Observation.Valid.normalizeMmsi (h : o.Valid L) :
    Vessel.normalizeMmsi (fieldOrNone o.row (lit "mmsi")) = .ok o.mmsi :=
  if_pos h.mmsi

/-- A valid row decodes to its point. -/
theorem trackPoint_row (h : o.Valid L) : trackPoint L o.row = .ok (o.mmsi, o.point) := by
  have hinstant : instantOf o.row = .ok o.occurredAt := rfl
  have hlon : fieldOf o.row (lit "longitude") = .ok (.float o.longitude) := rfl
  have hlat : fieldOf o.row (lit "latitude") = .ok (.float o.latitude) := rfl
  have hid : requireCanonicalObject L (fieldOrNone o.row (lit "event_id")) (lit "event_id") 256 =
      .ok o.eventId := h.eventId
  rw [trackPoint, h.normalizeMmsi, ok_bind, hinstant, ok_bind, hlon, ok_bind]
  simp only [PyObject.toFloat, ok_bind, hlat, hid, h.coordinates]
  rfl

/-- A valid observation's row is read back. -/
theorem trackRow_row (h : o.Valid L) : trackRow L o.row = .ok (some (o.mmsi, o.point)) := by
  rw [trackRow, trackPoint_row h]
  rfl

/-- The rows of a vessel are its points. -/
theorem entriesOf_rows (h : ∀ o ∈ os, o.Valid L) (mmsi : Text) :
    entriesOf (trackRow L) (os.map Observation.row) mmsi = pointsOf os mmsi := by
  induction os with
  | nil => rfl
  | cons o os ih =>
    obtain ⟨ho, hos⟩ := List.forall_mem_cons.1 h
    rw [List.map_cons, entriesOf, entries_cons_some (trackRow_row ho), pointsOf]
    by_cases hm : o.mmsi = mmsi
    · rw [List.filter_cons_of_pos (by simpa using hm), List.filter_cons_of_pos (by simpa using hm),
        List.map_cons, List.map_cons]
      exact congrArg _ (ih hos)
    · rw [List.filter_cons_of_neg (by simpa using hm), List.filter_cons_of_neg (by simpa using hm)]
      exact ih hos

/-- **The tracks of valid rows.** -/
theorem tracks_rows (h : ∀ o ∈ os, o.Valid L) :
    ∃ ts : Members (List (TrackPoint F)), tracks L (os.map Observation.row) = .ok ts ∧
      ts.Distinct ∧ ∀ mmsi track, ts.get mmsi = some track ↔
        track = pointsOf os mmsi ∧ track ≠ [] := by
  obtain ⟨ts, hts⟩ : ∃ ts, tracks L (os.map Observation.row) = .ok ts := by
    refine groupPass_isOk (fun b c => ⟨_, rfl⟩) fun row hrow => ?_
    obtain ⟨o, ho, rfl⟩ := List.mem_map.1 hrow
    exact ⟨_, trackRow_row (h o ho)⟩
  refine ⟨ts, hts, groupPass_distinct (by exact List.nodup_nil) hts, fun mmsi track => ?_⟩
  rw [groupPass_gather hts, entriesOf_rows h]

/-- **The segments of valid rows** are those of their vessels. -/
theorem segments_rows (h : ∀ o ∈ os, o.Valid L) {gapThreshold : ℤ} (hgap : 0 < gapThreshold) :
    ∃ segs, segments L (os.map Observation.row) gapThreshold = .ok segs ∧
      ∀ s : Segment F, s ∈ segs ↔
        (vesselSegments gapThreshold os s.mmsi)[s.segmentIndex]? = some s.points ∧
          s.dropped = (orderedTrack os s.mmsi).length -
            (deduplicated (orderedTrack os s.mmsi)).length := by
  obtain ⟨ts, hts, hdistinct, hget⟩ := tracks_rows h
  have htrack : ∀ t ∈ sortBy Prod.fst ts, trackSegments gapThreshold t = .ok
      (((deduplicated (sortBy TrackPoint.order t.2)).splitBy
        fun p q => !exceedsGap gapThreshold p q).mapIdx fun i segment =>
          { mmsi := t.1, segmentIndex := i, points := segment
            dropped := (sortBy TrackPoint.order t.2).length -
              (deduplicated (sortBy TrackPoint.order t.2)).length }) := by
    intro t _
    simp only [trackSegments, segmentTrack, if_neg (not_le.2 hgap), ok_bind, pure_eq_ok]
  refine ⟨_, by rw [segments, hts, ok_bind, collect_map_eq_ok htrack]; rfl, fun s => ?_⟩
  rw [List.mem_flatten]
  constructor
  · rintro ⟨_, hl, hs⟩
    obtain ⟨⟨mmsi, track⟩, ht, rfl⟩ := List.mem_map.1 hl
    obtain ⟨i, hi, rfl⟩ := List.mem_mapIdx.1 hs
    obtain ⟨rfl, -⟩ := (hget mmsi track).1 ((Members.get_eq_some hdistinct).2 (mem_sortBy.1 ht))
    exact ⟨List.getElem?_eq_getElem hi, rfl⟩
  · rintro ⟨hs, hdropped⟩
    obtain ⟨hi, hpoints⟩ := List.getElem?_eq_some_iff.1 hs
    have hne : pointsOf os s.mmsi ≠ [] := by
      intro hnil
      simp [vesselSegments, orderedTrack, hnil, deduplicated] at hi
    refine ⟨_, List.mem_map.2 ⟨(s.mmsi, pointsOf os s.mmsi), mem_sortBy.2
      ((Members.get_eq_some hdistinct).1 ((hget _ _).2 ⟨rfl, hne⟩)), rfl⟩, ?_⟩
    refine List.mem_mapIdx.2 ⟨s.segmentIndex, hi, ?_⟩
    obtain ⟨mmsi, index, points, dropped⟩ := s
    exact congrArg₂ (Segment.mk mmsi index) hpoints hdropped.symm

/-- Where there is a row, a threshold that is not positive is refused. -/
theorem gap_pos_of_segments (h : ∀ o ∈ os, o.Valid L) {gapThreshold : ℤ} {segs : List (Segment F)}
    (hs : segments L (os.map Observation.row) gapThreshold = .ok segs) (hne : os ≠ []) :
    0 < gapThreshold := by
  obtain ⟨o, os, rfl⟩ := List.exists_cons_of_ne_nil hne
  obtain ⟨ts, hts, hdistinct, hget⟩ := tracks_rows h
  have hmem : (o.mmsi, pointsOf (o :: os) o.mmsi) ∈ sortBy Prod.fst ts := by
    refine mem_sortBy.2 ((Members.get_eq_some hdistinct).1 ((hget _ _).2 ⟨rfl, ?_⟩))
    exact List.ne_nil_of_mem (mem_pointsOf.2 ⟨o, List.mem_cons_self, rfl, rfl⟩)
  rw [segments, hts, ok_bind] at hs
  obtain ⟨all, hall, -⟩ := bind_eq_ok.1 hs
  have hcollect := collect_eq_ok.1 hall
  rw [List.forall₂_map_left_iff] at hcollect
  obtain ⟨_, _, htrack⟩ := exists_of_forall₂ hcollect.flip hmem
  by_contra hgap
  rw [trackSegments] at htrack
  simp [segmentTrack, not_lt.1 hgap] at htrack

end Rows

end Vessel

end Lakehouse

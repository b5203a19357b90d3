import Lakehouse.Common.Dict
import Lakehouse.Common.Runs
import Lakehouse.Vessel.Engines
/-!
# The segments partition the track

What the assembly makes of the observations of one vessel: their points in
order, each run of repeats reduced to its first, cut where the gap exceeds
the threshold. Nothing is lost but the repeats, which are counted, and the
order of the observations does not matter (`trajectories_partition`).
-/

namespace Lakehouse

namespace Vessel

variable {F : Type} [PyFloat F] [PyMath F] {L : Library}

/-- The vessels of some observations, in order. -/
def vessels (os : List (Observation F)) : List Text :=
  (os.map Observation.mmsi).dedup.insertionSort (· ≤ ·)

/-- The segments of one vessel, as the assembly numbers them. -/
def segmentsOf (gapThreshold : ℤ) (os : List (Observation F)) (mmsi : Text) : List (Segment F) :=
  (vesselSegments gapThreshold os mmsi).mapIdx fun i points =>
    { mmsi, segmentIndex := i, points
      dropped := (orderedTrack os mmsi).length - (deduplicated (orderedTrack os mmsi)).length }

/-- The points of a track, each run of repeats reduced to its first. -/
def runHeads (points : List (TrackPoint F)) : List (TrackPoint F) :=
  (points.splitBy repeats).filterMap List.head?

/-- **Segments partition the points of a vessel.** -/
structure Partitions (gapThreshold : ℤ) (points : List (TrackPoint F)) (segs : List (Segment F)) :
    Prop where
  /-- They are numbered from zero. -/
  indices : segs.map Segment.segmentIndex = List.range segs.length
  /-- Together they are the points in order, without repeats. -/
  track : (segs.map Segment.points).flatten = runHeads (sortBy TrackPoint.order points)
  nonempty : ∀ s ∈ segs, s.points ≠ []
  /-- No gap in a segment exceeds the threshold. -/
  within : ∀ s ∈ segs, s.points.IsChain fun p q => q.occurredAt - p.occurredAt ≤ gapThreshold
  /-- Every gap between two segments does. -/
  between : segs.IsChain fun s s' => ∀ p ∈ s.points.getLast?, ∀ q ∈ s'.points.head?,
    gapThreshold < q.occurredAt - p.occurredAt
  /-- The points of all segments and the repeats are all points. -/
  total : ∀ s ∈ segs, (segs.map fun s => s.points.length).sum + s.dropped = points.length

/-- **A row reports a segment.** -/
structure Reports (gapThreshold : ℤ) (tolerance : F) (s : Segment F) (row : TrajectoryRow) :
    Prop where
  mmsi : row.mmsi = s.mmsi
  segmentIndex : row.segmentIndex = s.segmentIndex
  pointCount : row.pointCount = s.points.length
  started : s.points.head?.map (fun p => (p.occurredAt, p.eventId)) =
    some (row.startedAt, row.sourceFirstEventId)
  ended : s.points.getLast?.map (fun p => (p.occurredAt, p.eventId)) =
    some (row.endedAt, row.sourceLastEventId)
  geometry : row.geometryWkt = match s.points with
    | [p] => pointWkt p
    | points => lineWkt points
  /-- The repeats are among the metrics. -/
  quality : ∃ simplified span, dumps { sortKeys := true }
    (quality gapThreshold tolerance s simplified span) = .ok row.qualityJson

/-- A row but for the instant it was assembled at. -/
def TrajectoryRow.withoutAssembledAt (row : TrajectoryRow) : TrajectoryRow :=
  { row with assembledAt := 0 }

/-! ## The segments of one vessel -/

variable {o : Observation F} {os os' : List (Observation F)} {mmsi : Text} {gapThreshold : ℤ}

omit [PyMath F] in
/-- Apart from the signs of zeros, a repeat is the same instant and place. -/
theorem deduplicated_eq [LawfulFloat F] {points : List (TrackPoint F)}
    (h : ∀ p ∈ points, p.Finite) : deduplicated points = runHeads points := by
  refine destutter_eq_heads (f := fun p =>
    (p.occurredAt, LawfulFloat.val p.longitude, LawfulFloat.val p.latitude)) fun p hp q hq => ?_
  obtain ⟨hlon, hlat⟩ := h p hp
  obtain ⟨hlon', hlat'⟩ := h q hq
  rw [repeats, Bool.and_eq_true, Bool.and_eq_true, beq_iff_eq, LawfulFloat.eq_iff hlon hlon',
    LawfulFloat.eq_iff hlat hlat', Prod.mk.injEq, Prod.mk.injEq, and_assoc]

omit [PyMath F] in
/-- The points of the segments are the runs of the track. -/
theorem points_segmentsOf (gapThreshold : ℤ) (os : List (Observation F)) (mmsi : Text) :
    (segmentsOf gapThreshold os mmsi).map Segment.points = vesselSegments gapThreshold os mmsi := by
  refine List.ext_getElem? fun i => ?_
  rw [segmentsOf, List.getElem?_map, List.getElem?_mapIdx, Option.map_map]
  exact Option.map_id'

omit [PyFloat F] [PyMath F] in
/-- Points are together where no more than the gap is between them. -/
theorem exceedsGap_eq_false {p q : TrackPoint F} :
    (!exceedsGap gapThreshold p q) = true ↔ q.occurredAt - p.occurredAt ≤ gapThreshold := by
  rw [exceedsGap, Bool.not_eq_true', decide_eq_false_iff_not, not_lt]

omit [PyMath F] in
/-- **The segments of a vessel partition its points.** -/
theorem partitions_segmentsOf [LawfulFloat F] (h : ∀ o ∈ os, o.Valid L) :
    Partitions gapThreshold (pointsOf os mmsi) (segmentsOf gapThreshold os mmsi) := by
  have hpoints := points_segmentsOf gapThreshold os mmsi
  have hflatten : ((segmentsOf gapThreshold os mmsi).map Segment.points).flatten =
      deduplicated (orderedTrack os mmsi) := by
    rw [hpoints, vesselSegments, List.flatten_splitBy]
  have hfinite : ∀ p ∈ orderedTrack os mmsi, p.Finite := by
    intro p hp
    obtain ⟨o, ho, -, rfl⟩ := mem_pointsOf.1 (mem_sortBy.1 hp)
    exact (h o ho).point.finite
  have hmem : ∀ s ∈ segmentsOf gapThreshold os mmsi,
      s.points ∈ vesselSegments gapThreshold os mmsi := fun s hs =>
    hpoints ▸ List.mem_map_of_mem hs
  refine ⟨?_, ?_, fun s hs => ?_, fun s hs => ?_, ?_, fun s hs => ?_⟩
  · refine List.ext_getElem (by simp) fun i _ _ => ?_
    simp [segmentsOf]
  · rw [hflatten, deduplicated_eq hfinite]
    rfl
  · exact List.ne_nil_of_mem_splitBy (hmem s hs)
  · exact (List.isChain_of_mem_splitBy (hmem s hs)).imp fun p q => exceedsGap_eq_false.1
  · have hbetween : (vesselSegments gapThreshold os mmsi).IsChain fun points points' =>
        ∀ p ∈ points.getLast?, ∀ q ∈ points'.head?,
          gapThreshold < q.occurredAt - p.occurredAt := by
      refine (List.isChain_getLast_head_splitBy _ _).imp fun points points' hapart p hp q hq => ?_
      obtain ⟨hne, hne', hapart⟩ := hapart
      rw [List.getLast?_eq_getLast_of_ne_nil hne] at hp
      rw [List.head?_eq_some_head hne'] at hq
      cases hp
      cases hq
      simpa [exceedsGap] using hapart
    rw [← hpoints, List.isChain_map] at hbetween
    exact hbetween
  · have hdropped : s.dropped =
        (orderedTrack os mmsi).length - (deduplicated (orderedTrack os mmsi)).length := by
      obtain ⟨i, hi, rfl⟩ := List.mem_mapIdx.1 hs
      rfl
    have hlength := congrArg List.length hflatten
    rw [List.length_flatten, List.map_map] at hlength
    have hle : (deduplicated (orderedTrack os mmsi)).length ≤ (orderedTrack os mmsi).length :=
      (List.destutter_sublist _ _).length_le
    have hsum : ((segmentsOf gapThreshold os mmsi).map fun s => s.points.length).sum =
        (deduplicated (orderedTrack os mmsi)).length := hlength
    rw [hsum, hdropped, Nat.add_sub_cancel' hle, orderedTrack, length_sortBy]

/-! ## All vessels -/

omit [PyFloat F] [PyMath F] in
/-- The vessels are those observed. -/
theorem mem_vessels : mmsi ∈ vessels os ↔ ∃ o ∈ os, o.mmsi = mmsi := by
  rw [vessels, List.mem_insertionSort, List.mem_dedup, List.mem_map]

omit [PyFloat F] [PyMath F] in
/-- A vessel without points is one that was not observed. -/
theorem pointsOf_eq_nil : pointsOf os mmsi = [] ↔ mmsi ∉ vessels os := by
  rw [pointsOf, List.map_eq_nil_iff, List.filter_eq_nil_iff, mem_vessels]
  simp

/-- **The segments of valid rows**, vessel by vessel. -/
theorem segments_eq [LawfulFloat F] (h : ∀ o ∈ os, o.Valid L) (hgap : 0 < gapThreshold) :
    segments L (os.map Observation.row) gapThreshold =
      .ok ((vessels os).flatMap (segmentsOf gapThreshold os)) := by
  obtain ⟨ts, hts, hdistinct, hget⟩ := tracks_rows h
  have hkeys : (sortBy Prod.fst ts).map Prod.fst = vessels os := by
    have hmap : sortBy id (ts.map Prod.fst) = (sortBy Prod.fst ts).map Prod.fst :=
      sortBy_map Prod.fst ts
    rw [← hmap]
    refine insertionSort_perm ((List.perm_ext_iff_of_nodup hdistinct (List.nodup_dedup _)).2
      fun mmsi => ?_)
    have hvessel : mmsi ∈ (os.map Observation.mmsi).dedup ↔ mmsi ∈ vessels os :=
      (List.mem_insertionSort _).symm
    rw [hvessel, ← not_iff_not, ← Members.get_eq_none, ← pointsOf_eq_nil]
    constructor
    · intro hnone
      by_contra hne
      rw [(hget mmsi _).2 ⟨rfl, hne⟩] at hnone
      cases hnone
    · intro hnil
      by_contra hsome
      obtain ⟨track, htrack⟩ := Option.ne_none_iff_exists'.1 hsome
      obtain ⟨rfl, hne⟩ := (hget mmsi track).1 htrack
      exact hne hnil
  have hentries : ∀ t ∈ sortBy Prod.fst ts, t = (t.1, pointsOf os t.1) := by
    intro t ht
    exact Prod.ext rfl ((hget t.1 t.2).1
      ((Members.get_eq_some hdistinct).2 (mem_sortBy.1 ht))).1
  have htrack : ∀ t ∈ sortBy Prod.fst ts,
      trackSegments gapThreshold t = .ok (segmentsOf gapThreshold os t.1) := by
    intro t ht
    rw [hentries t ht]
    simp only [trackSegments, segmentTrack, if_neg (not_le.2 hgap), ok_bind, pure_eq_ok]
    rfl
  rw [segments, hts, ok_bind, collect_map_eq_ok htrack, ok_bind, ← hkeys, List.flatMap_map]
  rfl

omit [PyFloat F] [PyMath F] in
/-- A vessel is listed once. -/
theorem nodup_vessels (os : List (Observation F)) : (vessels os).Nodup :=
  (List.perm_insertionSort _ _).nodup_iff.2 (List.nodup_dedup _)

omit [PyMath F] in
/-- The segments of a vessel among all. -/
theorem filter_segments (mmsi : Text) :
    ((vessels os).flatMap (segmentsOf gapThreshold os)).filter (fun s => s.mmsi = mmsi) =
      segmentsOf gapThreshold os mmsi := by
  have hgroup : ∀ k ∈ vessels os, ∀ s ∈ segmentsOf gapThreshold os k, s.mmsi = k := by
    intro k _ s hs
    obtain ⟨i, hi, rfl⟩ := List.mem_mapIdx.1 hs
    rfl
  rw [Dict.filter_flatMap_key (nodup_vessels os) hgroup]
  split_ifs with hvessel
  · rfl
  · rw [segmentsOf, vesselSegments, orderedTrack, pointsOf_eq_nil.2 hvessel]
    rfl

/-! ## The order of the observations -/

omit [PyFloat F] [PyMath F] in
/-- Points with distinct event ids are ordered in one way. -/
theorem orderedTrack_perm (hids : (os.map Observation.eventId).Nodup) (hp : os.Perm os')
    (mmsi : Text) : orderedTrack os mmsi = orderedTrack os' mmsi := by
  have hpoints : (pointsOf os mmsi).Perm (pointsOf os' mmsi) := (hp.filter _).map _
  refine sortBy_perm hpoints (.of_map (fun order => (ofLex order).2) ?_)
  rw [List.map_map, pointsOf, List.map_map]
  exact hids.sublist (List.filter_sublist.map Observation.eventId)

omit [PyMath F] in
/-- **The segments do not depend on the order of the observations.** -/
theorem segmentsOf_perm (hids : (os.map Observation.eventId).Nodup) (hp : os.Perm os') :
    (vessels os).flatMap (segmentsOf gapThreshold os) =
      (vessels os').flatMap (segmentsOf gapThreshold os') := by
  have hvessels : vessels os = vessels os' := insertionSort_perm (hp.map _).dedup
  have hsegments : segmentsOf gapThreshold os = segmentsOf gapThreshold os' := by
    funext mmsi
    rw [segmentsOf, segmentsOf, vesselSegments, vesselSegments, orderedTrack_perm hids hp]
  rw [hvessels, hsegments]

/-! ## Rows -/

/-- A row but for its time does not depend on the clock. -/
theorem trajectoryRow_map {tolerance : F} (now : ℤ) (s : Segment F) :
    (trajectoryRow L gapThreshold tolerance now s).map TrajectoryRow.withoutAssembledAt =
      trajectoryRow L gapThreshold tolerance 0 s := by
  have hbind : ∀ {α : Type} (x : Except PyError α) (f : α → Except PyError TrajectoryRow),
      (x >>= f).map TrajectoryRow.withoutAssembledAt =
        x >>= fun a => (f a).map TrajectoryRow.withoutAssembledAt := by
    intro α x f
    cases x <;> rfl
  unfold trajectoryRow
  simp only [hbind]
  rfl

/-- The instant of the assembly is in its column only. -/
theorem assembleVesselTrajectories_map {tolerance : F} (now : ℤ) (rows : List (PyRow F)) :
    (assembleVesselTrajectories L now rows gapThreshold tolerance).map
        (List.map TrajectoryRow.withoutAssembledAt) =
      assembleVesselTrajectories L 0 rows gapThreshold tolerance := by
  unfold assembleVesselTrajectories
  cases segments L rows gapThreshold with
  | error e => rfl
  | ok segs =>
    simp only [ok_bind]
    induction segs with
    | nil => rfl
    | cons s segs ih =>
      rw [List.map_cons, List.map_cons, collect, collect, ← trajectoryRow_map now s, ← ih]
      cases trajectoryRow L gapThreshold tolerance now s with
      | error e => rfl
      | ok row =>
        cases collect (segs.map (trajectoryRow L gapThreshold tolerance now)) with
        | error e => rfl
        | ok rows => rfl

/-- **What a row says of its segment.** -/
theorem reports_trajectoryRow {tolerance : F} {now : ℤ} {s : Segment F} {row : TrajectoryRow}
    (hs : s.points ≠ []) (h : trajectoryRow L gapThreshold tolerance now s = .ok row) :
    Reports gapThreshold tolerance s row := by
  have hpos : 0 < s.points.length := List.length_pos_iff.2 hs
  obtain ⟨simplified, -, h⟩ := bind_eq_ok.1 h
  rw [item_eq_ok hpos, ok_bind, item_eq_ok (Nat.sub_one_lt hpos.ne'), ok_bind] at h
  obtain ⟨g, hg, h⟩ := bind_eq_ok.1 h
  obtain ⟨id, -, h⟩ := bind_eq_ok.1 h
  obtain ⟨json, hjson, h⟩ := bind_eq_ok.1 h
  cases h
  refine ⟨rfl, rfl, rfl, ?_, ?_, ?_, _, _, hjson⟩
  · rw [List.head?_eq_getElem?, List.getElem?_eq_getElem hpos]
    rfl
  · rw [List.getLast?_eq_getElem?, List.getElem?_eq_getElem (Nat.sub_one_lt hpos.ne')]
    rfl
  · obtain ⟨mmsi, index, points, dropped⟩ := s
    cases points with
    | nil => exact absurd rfl hs
    | cons p points =>
      cases points with
      | nil =>
        cases hg
        rfl
      | cons q points =>
        unfold geometry at hg
        rw [if_neg (by simp)] at hg
        obtain ⟨text, -, hg⟩ := bind_eq_ok.1 hg
        cases hg
        rfl

/-- **The assembly partitions the track of each vessel.** Its segments are
the points in order without repeats, cut at the gaps that exceed the
threshold; its rows report them; neither they nor the rows, but for the
instant of the assembly, depend on the order of the observations. -/
theorem trajectories_partition [LawfulFloat F] [LawfulMath F] (h : ∀ o ∈ os, o.Valid L)
    (hids : (os.map Observation.eventId).Nodup) (hgap : 0 < gapThreshold) :
    ∃ segs, segments L (os.map Observation.row) gapThreshold = .ok segs ∧
      (∀ mmsi, Partitions gapThreshold (pointsOf os mmsi) (segs.filter fun s => s.mmsi = mmsi)) ∧
      (∀ (now : ℤ) (tolerance : F) (rows : List TrajectoryRow),
        assembleVesselTrajectories L now (os.map Observation.row) gapThreshold tolerance =
          .ok rows → List.Forall₂ (Reports gapThreshold tolerance) segs rows) ∧
      (os.length < maxSize → gapThreshold < timedeltaBound →
        ∀ (now : ℤ) (tolerance : F), Usable tolerance → ∃ rows,
          assembleVesselTrajectories L now (os.map Observation.row) gapThreshold tolerance =
            .ok rows) ∧
      ∀ os', os.Perm os' → ∀ (now now' : ℤ) (tolerance : F),
        (assembleVesselTrajectories L now' (os'.map Observation.row) gapThreshold tolerance).map
            (List.map TrajectoryRow.withoutAssembledAt) =
          (assembleVesselTrajectories L now (os.map Observation.row) gapThreshold tolerance).map
            (List.map TrajectoryRow.withoutAssembledAt) := by
  have hsegs := segments_eq h hgap
  refine ⟨_, hsegs, fun mmsi => ?_, fun now tolerance rows hrows => ?_, ?_, ?_⟩
  · rw [filter_segments]
    exact partitions_segmentsOf h
  · rw [assembleVesselTrajectories, hsegs, ok_bind, collect_eq_ok,
      List.forall₂_map_left_iff] at hrows
    have hne : ∀ s ∈ (vessels os).flatMap (segmentsOf gapThreshold os), s.points ≠ [] := by
      intro s hs
      obtain ⟨mmsi, -, hs⟩ := List.mem_flatMap.1 hs
      exact (partitions_segmentsOf h).nonempty s hs
    refine ((List.forall₂_and_left _ _).2 ⟨hne, hrows⟩).imp ?_
    rintro s row ⟨hs, hrow⟩
    exact reports_trajectoryRow hs hrow
  · intro hsize hbound now tolerance htolerance
    exact assembleVesselTrajectories_isOk h hsize hgap hbound htolerance now
  -- the segments are made of the sorted tracks, which the order of the rows leaves
  · intro os' hp now now' tolerance
    have h' : ∀ o ∈ os', o.Valid L := fun o ho => h o (hp.mem_iff.2 ho)
    have hsegs' := segments_eq h' hgap
    rw [assembleVesselTrajectories_map, assembleVesselTrajectories_map, assembleVesselTrajectories,
      assembleVesselTrajectories, hsegs, hsegs', segmentsOf_perm hids hp]

/-! ### A vessel seen twice at once -/

/-- Two observations of one instant and place. -/
def twice : BronzeTable Decimal Library.ascii :=
  sightings 1 1 first_early first_early
    ((within_iff (by decide) (by decide) (by decide)).1 (by decide)) first_inRange

/-- The segments of the vessel of those sightings. -/
def ofSighted (segs : List (Segment Decimal)) : List (Segment Decimal) :=
  segs.filter fun s => s.mmsi = lit "657123400"

/-- One point is left, and one repeat reported. -/
theorem trajectories_partition_twice : ∃ segs,
    segments Library.ascii (twice.rows.map Observation.row) defaultGapThreshold = .ok segs ∧
      ((ofSighted segs).map Segment.points).flatten = [(sighting "obs-1" 1).point] ∧
      ∀ s ∈ ofSighted segs, ((ofSighted segs).map fun s => s.points.length).sum + s.dropped = 2 := by
  obtain ⟨segs, hsegs, hpartition, -⟩ :=
    trajectories_partition twice.valid twice.nodup (by decide : 0 < defaultGapThreshold)
  have hpart := hpartition (lit "657123400")
  refine ⟨segs, hsegs, ?_, hpart.total⟩
  rw [ofSighted, hpart.track]
  decide +kernel

end Vessel

end Lakehouse

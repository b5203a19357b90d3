import Lakehouse.Common.Group
import Lakehouse.Vessel.Bronze
import Lakehouse.Vessel.Simplify
/-!
# Silver trajectories

The pure-Python reference path. Bronze rows come back as dicts and are
checked again; the points of one MMSI are put in order of instant and
event id, a point repeated at the instant and the place of the last is
dropped, and the track is cut where the gap exceeds the threshold. Each
segment becomes one silver row.
-/

namespace Lakehouse

namespace Vessel

variable {F : Type} [PyFloat F] [PyMath F] (L : Library)

/-- A row as `to_pylist` returns it. -/
abbrev PyRow (F : Type) : Type := Members (PyObject F)

def optionalFloat : Option F → PyObject F
  | some x => .float x
  | none => .none

/-- The dict of an observation. -/
def Observation.row (o : Observation F) : PyRow F :=
  [(lit "event_id", .str o.eventId), (lit "mmsi", .str o.mmsi),
    (lit "occurred_at", .datetime o.occurredAt), (lit "recorded_at", .datetime o.recordedAt),
    (lit "latitude", .float o.latitude), (lit "longitude", .float o.longitude),
    (lit "speed_knots", optionalFloat o.speedKnots),
    (lit "heading_degrees", optionalFloat o.headingDegrees),
    (lit "decode_source", .str o.decodeSource), (lit "producer", .str o.producer),
    (lit "source_record_reference", .str o.sourceRecordReference),
    (lit "payload_json", .str o.payloadJson), (lit "ingested_at", .datetime o.ingestedAt)]

/-- `row[key]`. -/
def fieldOf (row : PyRow F) (key : Text) : Except PyError (PyObject F) :=
  match row.get key with
  | some v => .ok v
  | none => .error (.keyError key)

/-- `row.get("occurred_at")`, checked to be an instant. -/
def instantOf (row : PyRow F) : Except PyError ℤ :=
  match fieldOrNone row (lit "occurred_at") with
  | .datetime us => .ok us
  | _ => .error (.valueError (lit "bronze vessel observation is missing occurred_at"))

/-- `require_canonical_text` of any object. -/
def requireCanonicalObject (value : PyObject F) (fieldName : Text) (limit : ℕ) :
    Except PyError Text :=
  match value with
  | .str t => Ingest.requireCanonicalText L (.str t : Doc F) fieldName limit
  | _ => Ingest.requireCanonicalText L (.null : Doc F) fieldName limit

/-- The point of a bronze row, under its MMSI. -/
def trackPoint (row : PyRow F) : Except PyError (Text × TrackPoint F) := do
  let mmsi ← normalizeMmsi (fieldOrNone row (lit "mmsi"))
  let occurredAt ← instantOf row
  let longitude ← (← fieldOf row (lit "longitude")).toFloat
  let latitude ← (← fieldOf row (lit "latitude")).toFloat
  let eventId ← requireCanonicalObject L (fieldOrNone row (lit "event_id")) (lit "event_id") 256
  validateCoordinates latitude longitude
  return (mmsi, { occurredAt, longitude, latitude, eventId })

/-- Every row is one of a track. -/
def trackRow (row : PyRow F) : Except PyError (Option (Text × TrackPoint F)) := do
  return some (← trackPoint L row)

/-- `tracks.setdefault(mmsi, []).append(point)` for every row. -/
def tracks (observations : List (PyRow F)) : Except PyError (Members (List (TrackPoint F))) :=
  groupPass (trackRow L) (fun track point => .ok (track.getD [] ++ [point])) [] observations

/-! ## Segments -/

/-- `(point.occurred_at, point.event_id)`. -/
def TrackPoint.order (p : TrackPoint F) : ℤ ×ₗ Text := toLex (p.occurredAt, p.eventId)

/-- One point repeats another: the same instant, at the same place. -/
def repeats (p q : TrackPoint F) : Bool :=
  p.occurredAt == q.occurredAt && PyFloat.eq p.longitude q.longitude &&
    PyFloat.eq p.latitude q.latitude

/-- The points that do not repeat the last one kept. -/
def deduplicated (points : List (TrackPoint F)) : List (TrackPoint F) :=
  points.destutter fun p q => repeats p q = false

/-- `current.occurred_at - previous.occurred_at > gap_threshold`. -/
def exceedsGap (gapThreshold : ℤ) (previous current : TrackPoint F) : Bool :=
  decide (gapThreshold < current.occurredAt - previous.occurredAt)

/-- **`segment_track`.** -/
def segmentTrack (points : List (TrackPoint F)) (gapThreshold : ℤ) :
    Except PyError (List (List (TrackPoint F))) :=
  if gapThreshold ≤ 0 then .error (.valueError (lit "gap threshold must be positive"))
  else .ok (points.splitBy fun previous current => !exceedsGap gapThreshold previous current)

/-! ## Rows -/

/-- **`_format_ordinate`.** -/
def formatOrdinate (value : F) : Text :=
  let text := ((PyMath.fixed7 value).rstripChar 0x30).rstripChar 0x2E
  if text = lit "-0" ∨ text = [] then lit "0" else text

def ordinates (p : TrackPoint F) : Text :=
  formatOrdinate p.longitude ++ 0x20 :: formatOrdinate p.latitude

/-- **`point_wkt`.** -/
def pointWkt (p : TrackPoint F) : Text := lit "POINT (" ++ ordinates p ++ lit ")"

/-- **`line_wkt`.** -/
def lineWkt (points : List (TrackPoint F)) : Text :=
  lit "LINESTRING (" ++ Text.join (lit ", ") (points.map ordinates) ++ lit ")"

/-- The text `_trajectory_id` digests. -/
def trajectoryMaterial (mmsi firstEventId lastEventId : Text) : Text :=
  lit "vessel-trajectory/" ++ mmsi ++ 0x2F :: firstEventId ++ 0x2F :: lastEventId

/-- **`_trajectory_id`.** -/
def trajectoryId (mmsi firstEventId lastEventId : Text) : Except PyError Text := do
  return L.sha256 (← encodeUtf8 (trajectoryMaterial mmsi firstEventId lastEventId))

/-- **A silver row.** -/
structure TrajectoryRow where
  trajectoryId : Text
  mmsi : Text
  segmentIndex : ℕ
  startedAt : ℤ
  endedAt : ℤ
  pointCount : ℕ
  geometryType : Text
  geometryWkt : Text
  simplifiedWkt : Text
  crs : Text
  sourceFirstEventId : Text
  sourceLastEventId : Text
  qualityJson : Text
  assembledAt : ℤ
  deriving DecidableEq

/-- A segment of the track of one MMSI. -/
structure Segment (F : Type) where
  mmsi : Text
  segmentIndex : ℕ
  points : List (TrackPoint F)
  /-- `track_duplicates`. -/
  dropped : ℕ

/-- `float` in a document. -/
abbrev count (n : ℕ) : Doc F := .num (.int n)

/-- The quality metrics of a segment. -/
def quality (gapThreshold : ℤ) (simplifyTolerance : F) (s : Segment F) (simplified : ℕ)
    (span : ℤ) : Doc F :=
  .obj [(lit "point_count", count s.points.length), (lit "simplified_point_count", count simplified),
    (lit "track_duplicate_points_dropped", count s.dropped),
    (lit "gap_threshold_seconds", .num (.int (PyMath.wholeSeconds (F := F) gapThreshold))),
    (lit "simplify_tolerance_degrees", .num (.float simplifyTolerance)),
    (lit "time_span_seconds", .num (.int (PyMath.wholeSeconds (F := F) span)))]

/-- The text of a simplified line. -/
def simplifiedLineWkt (simplified : List (TrackPoint F)) : Except PyError Text :=
  if 1 < simplified.length then .ok (lineWkt simplified)
  else do return pointWkt (← item simplified 0)

/-- The texts of the geometry: its type, the line and the simplified line. -/
def geometry (points simplified : List (TrackPoint F)) (first : TrackPoint F) :
    Except PyError (Text × Text × Text) :=
  if points.length = 1 then .ok (lit "Point", pointWkt first, pointWkt first)
  else do return (lit "LineString", lineWkt points, ← simplifiedLineWkt simplified)

/-- The silver row of a segment. -/
def trajectoryRow (gapThreshold : ℤ) (simplifyTolerance : F) (now : ℤ) (s : Segment F) :
    Except PyError TrajectoryRow := do
  let simplified ← simplifyPreservingTopology s.points simplifyTolerance
  let first ← item s.points 0
  let last ← item s.points (s.points.length - 1)
  let (geometryType, geometryWkt, simplifiedWkt) ← geometry s.points simplified first
  let span := last.occurredAt - first.occurredAt
  return {
    trajectoryId := ← trajectoryId L s.mmsi first.eventId last.eventId
    mmsi := s.mmsi
    segmentIndex := s.segmentIndex
    startedAt := first.occurredAt
    endedAt := last.occurredAt
    pointCount := s.points.length
    geometryType, geometryWkt, simplifiedWkt
    crs := lit "EPSG:4326"
    sourceFirstEventId := first.eventId
    sourceLastEventId := last.eventId
    qualityJson := ← dumps { sortKeys := true }
      (quality gapThreshold simplifyTolerance s simplified.length span)
    assembledAt := now }

/-- The segments of one track, in order. -/
def trackSegments (gapThreshold : ℤ) (track : Text × List (TrackPoint F)) :
    Except PyError (List (Segment F)) := do
  let ordered := sortBy TrackPoint.order track.2
  let points := deduplicated ordered
  let segments ← segmentTrack points gapThreshold
  return segments.mapIdx fun i segment =>
    { mmsi := track.1, segmentIndex := i, points := segment
      dropped := ordered.length - points.length }

/-- The segments of all tracks, by MMSI. -/
def segments (observations : List (PyRow F)) (gapThreshold : ℤ) :
    Except PyError (List (Segment F)) := do
  let tracks ← tracks L observations
  return (← collect ((sortBy Prod.fst tracks).map (trackSegments gapThreshold))).flatten

/-- **`assemble_vessel_trajectories`**, at the instant `now`. -/
def assembleVesselTrajectories (now : ℤ) (observations : List (PyRow F)) (gapThreshold : ℤ)
    (simplifyTolerance : F) : Except PyError (List TrajectoryRow) := do
  let segments ← segments L observations gapThreshold
  collect (segments.map (trajectoryRow L gapThreshold simplifyTolerance now))

end Vessel

end Lakehouse

import Lakehouse.Common.Cuts
import Lakehouse.Vessel.Tracks
/-!
# The Spark engine

The SQL of the batch job, on the columns its trajectories are made of. A
window over each MMSI carries the lagged epoch and the running sum that
numbers the segments; the points of a segment are collected and sorted
again, by epoch and event id. The cast of a timestamp to a long is a
parameter: it truncates to whole seconds.
-/

namespace Lakehouse

namespace Vessel

variable {F : Type} [PyFloat F] (L : Library) (epoch : ℤ → ℤ) (gapSeconds : F)

/-- A row of `flagged_observations`. -/
structure Flagged (F : Type) where
  mmsi : Text
  point : TrackPoint F
  epoch : ℤ
  newSegment : ℤ
  segmentIndex : ℤ

/-- `epoch - previous_epoch > gap_seconds`. -/
def exceedsSeconds (previousEpoch currentEpoch : ℤ) : Bool :=
  PyFloat.lt gapSeconds (PyFloat.ofInt (currentEpoch - previousEpoch))

/-- `new_segment`: one for the first row of a window. -/
def newSegment (previousEpoch : Option ℤ) (currentEpoch : ℤ) : ℤ :=
  match previousEpoch with
  | none => 1
  | some previous => if exceedsSeconds gapSeconds previous currentEpoch then 1 else 0

/-- The rows of one window, in its order: `lag("epoch")` and the running
sum of `new_segment`, less one. -/
def flagWindow (mmsi : Text) : Option ℤ → ℤ → List (TrackPoint F) → List (Flagged F)
  | _, _, [] => []
  | previous, total, p :: points =>
    let current := epoch p.occurredAt
    let flag := newSegment gapSeconds previous current
    { mmsi, point := p, epoch := current, newSegment := flag, segmentIndex := total + flag - 1 } ::
      flagWindow mmsi (some current) (total + flag) points

/-- `Window.partitionBy("mmsi").orderBy("occurred_at", "event_id")`. -/
def window (os : List (Observation F)) (mmsi : Text) : List (TrackPoint F) :=
  sortBy (fun p => toLex (p.occurredAt, p.eventId)) (pointsOf os mmsi)

/-- `flagged_observations`. -/
def flagged (os : List (Observation F)) : List (Flagged F) :=
  (os.map Observation.mmsi).dedup.flatMap fun mmsi =>
    flagWindow epoch gapSeconds mmsi none 0 (window os mmsi)

/-- The order of the structs `(epoch, event_id, lon, lat)`. Event ids are
distinct, so no comparison reaches the coordinates. -/
def structOrder (p : TrackPoint F) : ℤ ×ₗ Text := toLex (epoch p.occurredAt, p.eventId)

/-- `sort_array(collect_list(...))` of one group. -/
def collected (os : List (Observation F)) (key : Text × ℤ) : List (TrackPoint F) :=
  sortBy (structOrder epoch) (((flagged epoch gapSeconds os).filter
    fun f => f.mmsi = key.1 ∧ f.segmentIndex = key.2).map Flagged.point)

/-- `GROUP BY mmsi, segment_index`. -/
def groups (os : List (Observation F)) : List (Text × ℤ) :=
  ((flagged epoch gapSeconds os).map fun f => (f.mmsi, f.segmentIndex)).dedup

/-- What both engines write of a segment, and the order of its points. -/
structure SegmentView where
  trajectoryId : Text
  mmsi : Text
  segmentIndex : ℤ
  pointCount : ℕ
  sourceFirstEventId : Text
  sourceLastEventId : Text
  pointOrder : List Text
  deriving DecidableEq

/-- `sha2(text, 256)`, of the text in UTF-8. -/
def sha2 (t : Text) : Text := L.sha256 ((t.flatMap Text.utf8Octets).map UInt8.ofNat)

/-- `element_at(points, 1).event_id`. -/
def firstEventId (points : List (TrackPoint F)) : Text := (points.head?.map TrackPoint.eventId).getD []

/-- `element_at(points, -1).event_id`. -/
def lastEventId (points : List (TrackPoint F)) : Text :=
  (points.getLast?.map TrackPoint.eventId).getD []

/-- **The rows of the Spark engine.** -/
def sparkSegments (os : List (Observation F)) : List SegmentView :=
  (groups epoch gapSeconds os).map fun key =>
    let points := collected epoch gapSeconds os key
    { trajectoryId := sha2 L (trajectoryMaterial key.1 (firstEventId points) (lastEventId points))
      mmsi := key.1
      segmentIndex := key.2
      pointCount := points.length
      sourceFirstEventId := firstEventId points
      sourceLastEventId := lastEventId points
      pointOrder := points.map TrackPoint.eventId }

end Vessel

end Lakehouse

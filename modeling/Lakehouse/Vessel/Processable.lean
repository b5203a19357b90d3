import Lakehouse.Signing.SignVerify
import Lakehouse.Vessel.Geofence
import Lakehouse.Vessel.Tracks
/-!
# What bronze accepts, silver and gold can process

The checks of the later stages are made again on every rebuild of a table
that only grows, so one row they refuse stops them for good. There is
none: a decoded row passes them all, and neither the simplification of a
track nor the ray test of a geofence raises on what they admit
(`rows_processable`).
-/

namespace Lakehouse

namespace Vessel

variable {F : Type} [PyFloat F] [PyMath F] {L : Library}

/-- `DEFAULT_GAP_THRESHOLD`, in microseconds. -/
def defaultGapThreshold : ℤ := 2 * 3600 * 1000000

/-- `DEFAULT_SIMPLIFY_TOLERANCE_DEGREES`. -/
def defaultSimplifyTolerance : F := PyFloat.ofNumeral ⟨false, lit "0", some (lit "0005"), none⟩

/-- `timedelta.max` is below a thousand million days. -/
def timedeltaBound : ℤ := 1000000000 * 86400 * 1000000

/-- `sys.maxsize`, which bounds the length of a list. -/
def maxSize : ℕ := 2 ^ 63

section Returns

variable [LawfulFloat F] [LawfulMath F] {o : Observation F} {os : List (Observation F)}

/-- The default tolerance is usable. -/
theorem usable_default : Usable (defaultSimplifyTolerance : F) := by
  have hv : (⟨false, lit "0", some (lit "0005"), none⟩ : Numeral).value = 1 / 2000 := by
    have hd : digitsValue (lit "0" ++ lit "0005") = 5 := by decide
    have he : (0 : ℤ) - (lit "0005").length = -4 := by decide
    simp only [Numeral.value, Numeral.digits, Numeral.exponent, Numeral.expValue,
      Option.getD_some, hd, he]
    norm_num
  have hwf : (⟨false, lit "0", some (lit "0005"), none⟩ : Numeral).Wf := by
    refine ⟨.inl rfl, ?_, nofun⟩
    rintro _ ⟨⟩
    exact ⟨by decide, by decide⟩
  obtain ⟨hfin, hnear⟩ := LawfulMath.ofNumeral_near (F := F) hwf
    (by rw [hv]; norm_num) (by rw [hv]; norm_num)
  refine usable_of_le hfin (le_trans ?_ hnear)
  rw [hv]
  norm_num

/-! ## Silver -/

/-- A point of a valid observation. -/
structure TrackPoint.Valid (p : TrackPoint F) : Prop where
  finite : p.Finite
  eventId : p.eventId.IsScalar
  occurredAt : IsoTime.bounds.1 ≤ p.occurredAt ∧ p.occurredAt ≤ IsoTime.bounds.2

omit [PyMath F] [LawfulMath F] in
/-- A valid observation gives a valid point. -/
theorem Observation.Valid.point (h : o.Valid L) : o.point.Valid :=
  ⟨⟨h.motion.longitude.1, h.motion.latitude.1⟩,
    (Ingest.requireCanonicalText_eq_ok L h.eventId).2.2, h.occurredAt⟩

/-- The digits of an MMSI are ASCII. -/
theorem isScalar_of_isMmsi {t : Text} (h : IsMmsi t) : t.IsScalar := fun c hc =>
  scalar_of_isDigit (h.2 c hc)

omit [PyFloat F] [PyMath F] [LawfulFloat F] [LawfulMath F] in
/-- A trajectory of readable texts has its id. -/
theorem trajectoryId_isOk {mmsi first last : Text} (hm : mmsi.IsScalar) (hf : first.IsScalar)
    (hl : last.IsScalar) : ∃ t, trajectoryId L mmsi first last = .ok t := by
  have hscalar : (trajectoryMaterial mmsi first last).IsScalar := by
    have hlit : (lit "vessel-trajectory/").IsScalar := by decide
    have hslash : Scalar 0x2F := by decide
    simp [trajectoryMaterial, hlit, hm, hf, hl, hslash]
  obtain ⟨b, hb⟩ : ∃ b, (trajectoryMaterial mmsi first last).utf8 = some b :=
    ⟨_, Text.utf8_eq_some.2 ⟨hscalar, rfl⟩⟩
  exact ⟨_, by rw [trajectoryId, encodeUtf8_eq_ok.2 hb]; rfl⟩

/-- What a segment of valid observations holds. -/
structure Segment.Valid (s : Segment F) : Prop where
  mmsi : IsMmsi s.mmsi
  nonempty : s.points ≠ []
  points : ∀ p ∈ s.points, p.Valid
  length : s.points.length < maxSize
  dropped : s.dropped < maxSize

omit [PyFloat F] [LawfulFloat F] [LawfulMath F] in
/-- A track of two points or more has its line. -/
theorem geometry_isOk (points : List (TrackPoint F)) (p q : TrackPoint F)
    (rest : List (TrackPoint F)) : ∃ g, geometry points (q :: rest) p = .ok g := by
  unfold geometry
  split_ifs
  · exact ⟨_, rfl⟩
  · unfold simplifiedLineWkt
    split_ifs
    · exact ⟨_, rfl⟩
    · exact ⟨_, rfl⟩

/-- **A segment has its quality text**: the numbers in it are within what can
be written. -/
theorem quality_isOk {gapThreshold span : ℤ} {tolerance : F} {s : Segment F} {simplified : ℕ}
    (hs : s.Valid) (hgap : gapThreshold.natAbs < 10 ^ 20) (hspan : span.natAbs < 10 ^ 20)
    (htolerance : PyFloat.isFinite tolerance = true) (hsimplified : simplified < maxSize) :
    ∃ t, dumps { sortKeys := true } (quality gapThreshold tolerance s simplified span) = .ok t := by
  have hsize : maxSize ≤ 10 ^ 20 := by decide
  have hcount : ∀ n : ℕ, n < maxSize → (PyNum.int n : PyNum F).Printable := by
    intro n hn
    change (n : ℤ).natAbs < 10 ^ 20
    rw [Int.natAbs_natCast]
    exact hn.trans_le hsize
  have hwhole : ∀ us : ℤ, us.natAbs < 10 ^ 20 →
      (PyNum.int (PyMath.wholeSeconds (F := F) us) : PyNum F).Printable :=
    fun us h => (LawfulMath.wholeSeconds_le us).trans_lt h
  have hdistinct : Members.Distinct [(lit "point_count", (count s.points.length : Doc F)),
      (lit "simplified_point_count", count simplified),
      (lit "track_duplicate_points_dropped", count s.dropped),
      (lit "gap_threshold_seconds", .num (.int (PyMath.wholeSeconds (F := F) gapThreshold))),
      (lit "simplify_tolerance_degrees", .num (.float tolerance)),
      (lit "time_span_seconds", .num (.int (PyMath.wholeSeconds (F := F) span)))] := by
    simp only [Members.Distinct, List.map_cons, List.map_nil]
    decide
  refine dumps_isOk _ ⟨hdistinct, ?_⟩
  simp only [Json.ValidMembers, Json.Valid, true_and, and_true]
  exact ⟨hcount _ hs.length, hcount _ hsimplified, hcount _ hs.dropped, hwhole _ hgap, htolerance,
    hwhole _ hspan⟩

/-- **A valid segment becomes a row.** -/
theorem trajectoryRow_isOk {gapThreshold now : ℤ} {tolerance : F} {s : Segment F} (hs : s.Valid)
    (hgap : gapThreshold.natAbs < 10 ^ 20) (htolerance : Usable tolerance) :
    ∃ row, trajectoryRow L gapThreshold tolerance now s = .ok row := by
  have hpos : 0 < s.points.length := List.length_pos_iff.2 hs.nonempty
  obtain ⟨q, rest, hsimplify⟩ := simplifyPreservingTopology_isOk hs.nonempty
    (fun p hp => (hs.points p hp).finite) htolerance
  have hfirst := hs.points _ (List.getElem_mem hpos)
  have hlast := hs.points _ (List.getElem_mem (Nat.sub_one_lt hpos.ne'))
  obtain ⟨g, hg⟩ := geometry_isOk s.points s.points[0] q rest
  obtain ⟨id, hid⟩ := trajectoryId_isOk (L := L) (isScalar_of_isMmsi hs.mmsi) hfirst.eventId
    hlast.eventId
  have hspan : (s.points[s.points.length - 1].occurredAt - s.points[0].occurredAt).natAbs <
      10 ^ 20 := by
    have hbounds : IsoTime.bounds = (-62135596800000000, 253402300799999999) := by decide
    have h₁ := hfirst.occurredAt
    have h₂ := hlast.occurredAt
    rw [hbounds] at h₁ h₂
    simp only at h₁ h₂
    omega
  obtain ⟨json, hjson⟩ := quality_isOk hs hgap hspan (htolerance 0 (by decide)).2
    ((simplifyPreservingTopology_sublist hsimplify).length_le.trans_lt hs.length)
  rw [trajectoryRow, hsimplify, ok_bind, item_eq_ok hpos, ok_bind,
    item_eq_ok (Nat.sub_one_lt hpos.ne'), ok_bind, hg]
  simp only [ok_bind, hid]
  exact ⟨_, bind_eq_ok.2 ⟨json, hjson, rfl⟩⟩

omit [PyMath F] [LawfulMath F] [PyFloat F] [LawfulFloat F] in
/-- A vessel has no more points than there are observations. -/
theorem length_pointsOf (os : List (Observation F)) (mmsi : Text) :
    (pointsOf os mmsi).length ≤ os.length := by
  rw [pointsOf, List.length_map]
  exact List.length_filter_le _ _

omit [PyMath F] [LawfulMath F] in
/-- The segments of valid observations are valid. -/
theorem segment_valid (h : ∀ o ∈ os, o.Valid L) (hsize : os.length < maxSize)
    {gapThreshold : ℤ} {s : Segment F}
    (hs : (vesselSegments gapThreshold os s.mmsi)[s.segmentIndex]? = some s.points)
    (hdropped : s.dropped = (orderedTrack os s.mmsi).length -
      (deduplicated (orderedTrack os s.mmsi)).length) : s.Valid := by
  have hmem : s.points ∈ vesselSegments gapThreshold os s.mmsi := List.mem_of_getElem? hs
  have hsub : s.points.Sublist (orderedTrack os s.mmsi) := by
    have hflat := List.sublist_flatten_of_mem hmem
    rw [vesselSegments, List.flatten_splitBy] at hflat
    exact hflat.trans (List.destutter_sublist _ _)
  have hlength : (orderedTrack os s.mmsi).length ≤ os.length := by
    rw [orderedTrack, length_sortBy]
    exact length_pointsOf os s.mmsi
  have hpoint : ∀ p ∈ s.points, ∃ o ∈ os, o.mmsi = s.mmsi ∧ o.point = p := by
    intro p hp
    exact mem_pointsOf.1 (mem_sortBy.1 (hsub.mem hp))
  have hne : s.points ≠ [] := List.ne_nil_of_mem_splitBy hmem
  refine ⟨?_, hne, fun p hp => ?_, ?_, ?_⟩
  · obtain ⟨p, hp⟩ := List.exists_mem_of_ne_nil _ hne
    obtain ⟨o, ho, hmmsi, -⟩ := hpoint p hp
    exact hmmsi ▸ (h o ho).mmsi
  · obtain ⟨o, ho, -, rfl⟩ := hpoint p hp
    exact (h o ho).point
  · exact (hsub.length_le.trans hlength).trans_lt hsize
  · rw [hdropped]
    exact ((Nat.sub_le _ _).trans hlength).trans_lt hsize

/-- **Silver processes valid observations.** -/
theorem assembleVesselTrajectories_isOk (h : ∀ o ∈ os, o.Valid L)
    (hsize : os.length < maxSize) {gapThreshold : ℤ} (hgap : 0 < gapThreshold)
    (hbound : gapThreshold < timedeltaBound) {tolerance : F} (htolerance : Usable tolerance)
    (now : ℤ) :
    ∃ silver, assembleVesselTrajectories L now (os.map Observation.row) gapThreshold tolerance =
      .ok silver := by
  obtain ⟨segs, hsegs, hmem⟩ := segments_rows h hgap
  rw [assembleVesselTrajectories, hsegs, ok_bind]
  refine exists_collect_map fun s hs => ?_
  obtain ⟨hpoints, hdropped⟩ := (hmem s).1 hs
  refine trajectoryRow_isOk (segment_valid h hsize hpoints hdropped) ?_ htolerance
  unfold timedeltaBound at hbound
  omega

/-! ## Gold -/

omit [PyMath F] [LawfulFloat F] [LawfulMath F] in
/-- The event id of an observation's row is the observation's. -/
theorem eventIdOf_row (o : Observation F) : eventIdOf L o.row = .ok o.eventId := rfl

omit [PyMath F] [LawfulFloat F] [LawfulMath F] in
/-- A summary takes in an observation's row. -/
theorem seen_isOk (s : GeofenceSummary) (o : Observation F) (occurredAt : ℤ) :
    ∃ s', s.seen L o.row occurredAt = .ok s' := by
  have hfirst : ∀ s : GeofenceSummary, ∃ s', s.seenFirst L o.row occurredAt = .ok s' := by
    intro s
    unfold GeofenceSummary.seenFirst
    split_ifs
    · exact ⟨_, by rw [eventIdOf_row]; rfl⟩
    · exact ⟨s, rfl⟩
  have hlast : ∀ s : GeofenceSummary, ∃ s', s.seenLast L o.row occurredAt = .ok s' := by
    intro s
    unfold GeofenceSummary.seenLast
    split_ifs
    · exact ⟨_, by rw [eventIdOf_row]; rfl⟩
    · exact ⟨s, rfl⟩
  obtain ⟨s₁, h₁⟩ := hfirst { s with observationCount := s.observationCount + 1 }
  obtain ⟨s₂, h₂⟩ := hlast s₁
  exact ⟨s₂, bind_eq_ok.2 ⟨s₁, h₁, h₂⟩⟩

/-- A geofence takes in an observation's row. -/
theorem aggregateOne_isOk {position : Position F}
    (hp : PyFloat.isFinite position.latitude = true) (now occurredAt : ℤ) (mmsi : Text)
    (o : Observation F) (aggregates : Aggregates) (geofence : Geofence F) :
    ∃ as, aggregateOne L now mmsi occurredAt position o.row aggregates geofence = .ok as := by
  have hok := validateGeometry_eq_ok geofence.valid
  obtain ⟨b, hb⟩ := containsPosition_isOk hp hok
  rw [aggregateOne, hb, ok_bind]
  split_ifs
  · exact ⟨_, rfl⟩
  · simp only
    cases aggregates.lookup (geofence.identifier, mmsi) with
    | some entry =>
      obtain ⟨s, hs⟩ := seen_isOk (L := L) entry o occurredAt
      simp only [hs, ok_bind]
      exact ⟨_, rfl⟩
    | none =>
      obtain ⟨wkt, hwkt⟩ := geofencePolygonWkt_isOk hok
      simp only [newEntry, eventIdOf_row, ok_bind, hwkt]
      exact ⟨_, rfl⟩

omit [PyMath F] [LawfulMath F] in
/-- A valid observation has a position on the globe. -/
theorem Observation.Valid.position (h : o.Valid L) :
    Position.make o.latitude o.longitude = .ok ⟨o.latitude, o.longitude⟩ := by
  obtain ⟨hlat, hlon⟩ := validateCoordinates_eq_ok.1 h.coordinates
  rw [Position.make, if_neg (by simp [h.motion.latitude.1, hlat]),
    if_neg (by simp [h.motion.longitude.1, hlon])]

/-- All geofences take in an observation's row. -/
theorem aggregateRow_isOk (h : o.Valid L) (now : ℤ) (geofences : List (Geofence F))
    (aggregates : Aggregates) :
    ∃ as, aggregateRow L now geofences aggregates o.row = .ok as := by
  have hinstant : instantOf o.row = .ok o.occurredAt := rfl
  have hlat : fieldOf o.row (lit "latitude") = .ok (.float o.latitude) := rfl
  have hlon : fieldOf o.row (lit "longitude") = .ok (.float o.longitude) := rfl
  rw [aggregateRow, h.normalizeMmsi, ok_bind, hinstant, ok_bind, hlat, ok_bind]
  simp only [PyObject.toFloat, ok_bind, hlon, h.position]
  exact foldlM_isOk (fun geofence _ aggregates =>
    aggregateOne_isOk h.motion.latitude.1 now _ _ o aggregates geofence) aggregates

/-- **Gold processes valid observations.** -/
theorem buildGeofenceSummaries_isOk (h : ∀ o ∈ os, o.Valid L) {geofences : List (Geofence F)}
    (hne : geofences ≠ []) (now : ℤ) :
    ∃ gold, buildGeofenceSummaries L now (os.map Observation.row) geofences = .ok gold := by
  obtain ⟨aggregates, hagg⟩ : ∃ aggregates,
      (os.map Observation.row).foldlM (aggregateRow L now geofences) [] = .ok aggregates := by
    refine foldlM_isOk (fun row hrow aggregates => ?_) []
    obtain ⟨o, ho, rfl⟩ := List.mem_map.1 hrow
    exact aggregateRow_isOk (h o ho) now geofences aggregates
  exact ⟨_, by rw [buildGeofenceSummaries, if_neg hne, hagg]; rfl⟩

/-- A row `decode_vessel_observation` returned, for some envelope, keys and
libraries. -/
def Decoded (L : Library) (o : Observation F) : Prop :=
  ∃ (E : Ed25519) (directory : Members E.PublicKey) (schemaErrors : Members (Doc F) → List Text)
    (pyais : Pyais F) (now : ℤ) (document : Members (Doc F)),
    decodeVesselObservation L E directory schemaErrors pyais now document = .ok o

/-- **Everything bronze accepts, silver and gold can process.** -/
theorem rows_processable (hL : L.InCalendar) (hos : ∀ o ∈ os, Decoded L o)
    (hsize : os.length < maxSize) :
    (∀ o ∈ os, IsMmsi o.mmsi ∧
      Plausible o.latitude o.longitude o.speedKnots o.headingDegrees) ∧
    (∀ (now gapThreshold : ℤ) (tolerance : F), 0 < gapThreshold → gapThreshold < timedeltaBound →
      Usable tolerance → ∃ silver, assembleVesselTrajectories L now (os.map Observation.row)
        gapThreshold tolerance = .ok silver) ∧
    (∀ now, ∃ silver, assembleVesselTrajectories L now (os.map Observation.row)
      defaultGapThreshold (defaultSimplifyTolerance : F) = .ok silver) ∧
    ∀ (now : ℤ) (geofences : List (Geofence F)), geofences ≠ [] →
      ∃ gold, buildGeofenceSummaries L now (os.map Observation.row) geofences = .ok gold := by
  have hvalid : ∀ o ∈ os, o.Valid L := by
    intro o ho
    obtain ⟨_, _, _, _, _, _, h⟩ := hos o ho
    exact decodeVesselObservation_eq_ok L hL h
  refine ⟨fun o ho => ⟨(hvalid o ho).mmsi, (hvalid o ho).motion⟩,
    fun now gap tolerance hgap hbound htolerance =>
      assembleVesselTrajectories_isOk hvalid hsize hgap hbound htolerance now,
    fun now => ?_, fun now geofences hne => buildGeofenceSummaries_isOk hvalid hne now⟩
  exact assembleVesselTrajectories_isOk hvalid hsize (by decide) (by decide) usable_default now

end Returns

/-! ## Three observations -/

/-- An envelope of an observation. -/
def observationEnvelope (eventId occurredAt : Text) (resource : Members (Doc Decimal)) :
    Members (Doc Decimal) :=
  [(lit "envelopeVersion", .str (lit "1.0")), (lit "eventId", .str eventId),
    (lit "eventType", .str vesselObservationEventType), (lit "occurredAt", .str occurredAt),
    (lit "producer", .str (lit "geo-service")),
    (lit "fhir", .obj [(lit "entry", .arr [.obj [(lit "resource", .obj resource)]])]),
    (lit "provenance", .obj [(lit "ledgerCommitHash", .str (lit "c0ffee"))]),
    (lit "classification", .str (lit "INTERNAL"))]

/-- A class A position report, and what the library reads off it. -/
def positionSentence : Text := lit "!AIVDM,1,1,,A,19jT6a001uP@1I020;81p1Jt0000,0*14"

def readPosition : Pyais Decimal := fun sentences =>
  if sentences = [positionSentence] then
    .ok [(lit "msg_type", .int 1), (lit "mmsi", .int 657000100),
      (lit "speed", .float (.fin false 125 (-1))), (lit "lon", .float (.fin false 35 (-1))),
      (lit "lat", .float (.fin false 35 (-1))), (lit "course", .float (.fin false 48 0)),
      (lit "heading", .int 45)]
  else .error (.refused (lit "unknown message"))

/-- The decoding of an envelope, signed. -/
def decodedObservation (envelope : Members (Doc Decimal)) : Except PyError (Observation Decimal) := do
  let signed ← Envelope.signDocument Envelope.echo envelope () (lit "geo-1")
  decodeVesselObservation Library.ascii Envelope.echo [(lit "geo-1", ())] (fun _ => []) readPosition
    0 signed

/-- One vessel twice, first through its sentence and then as the payload has
it, and another far from both. -/
def threeEnvelopes : List (Members (Doc Decimal)) :=
  [observationEnvelope (lit "obs-2") (lit "2026-03-01T08:10:00Z")
      [(lit "mmsi", .str (lit "657000100")), (lit "latitude", .num (.float (.fin false 35 (-1)))),
        (lit "longitude", .num (.float (.fin false 35 (-1)))),
        (lit "nmeaSentences", .arr [.str positionSentence])],
    observationEnvelope (lit "obs-1") (lit "2026-03-01T08:00:00Z")
      [(lit "mmsi", .num (.int 657000100)), (lit "latitude", .num (.float (.fin false 35 (-1)))),
        (lit "longitude", .num (.float (.fin false 34 (-1)))), (lit "headingDegrees", .num (.int 90))],
    observationEnvelope (lit "obs-3") (lit "2026-03-01T08:05:00Z")
      [(lit "mmsi", .num (.int 657100200)), (lit "latitude", .num (.int (-10))),
        (lit "longitude", .num (.int 12)), (lit "speedKnots", .num (.int 0))]]

/-- A degree around the position. -/
def harbour : Members (Doc Decimal) :=
  let vertex := fun x y : ℤ => Json.arr [.num (.int x), .num (.int y)]
  [(lit "type", .str (lit "Polygon")),
    (lit "coordinates", .arr [.arr [vertex 3 3, vertex 4 3, vertex 4 4, vertex 3 4, vertex 3 3]])]

/-- The sample geofence is accepted. -/
theorem validate_harbour : validateGeometry harbour = .ok () :=
  toOption_eq_some.1 (by decide +kernel)

/-- The sample library prints instants within the calendar. -/
theorem Library.ascii_inCalendar : Library.ascii.InCalendar := by
  intro t us h
  change IsoTime.parse t = _ at h
  unfold IsoTime.parse at h
  simp only at h
  split at h
  · cases h
  · cases h
  · split_ifs at h with hbounds
    cases h
    omega

/-- The three are decoded, one of them through the sentence. -/
theorem decodeSource_three :
    (collect (threeEnvelopes.map decodedObservation)).toOption.map (List.map Observation.decodeSource) =
      some [lit "ais-nmea", lit "payload", lit "payload"] := by decide +kernel

/-- What the decoder makes of a sample envelope is a decoded observation. -/
theorem decoded_of_decodedObservation {envelope : Members (Doc Decimal)} {o : Observation Decimal}
    (h : decodedObservation envelope = .ok o) : Decoded Library.ascii o := by
  obtain ⟨signed, -, hdecoded⟩ := bind_eq_ok.1 h
  exact ⟨_, _, _, _, _, signed, hdecoded⟩

/-- Rows of two vessels, one read off its sentence, become trajectories and
summaries. -/
theorem observation_processable : ∃ os,
    collect (threeEnvelopes.map decodedObservation) = .ok os ∧
    os.map Observation.decodeSource = [lit "ais-nmea", lit "payload", lit "payload"] ∧
    (∃ silver, assembleVesselTrajectories Library.ascii 0 (os.map Observation.row)
      defaultGapThreshold (defaultSimplifyTolerance : Decimal) = .ok silver) ∧
    ∃ gold, buildGeofenceSummaries Library.ascii 0 (os.map Observation.row)
      [⟨lit "harbour", harbour, by decide, validate_harbour⟩] = .ok gold := by
  obtain ⟨os, hos, hsources⟩ := Option.map_eq_some_iff.1 decodeSource_three
  have hos := toOption_eq_some.1 hos
  have hdecoded : ∀ o ∈ os, Decoded Library.ascii o := by
    intro o ho
    obtain ⟨envelope, -, henvelope⟩ := List.mem_map.1 (mem_of_collect hos ho)
    exact decoded_of_decodedObservation henvelope
  have hlength : os.length = 3 := by simpa using congrArg List.length hsources
  obtain ⟨-, -, hsilver, hgold⟩ := rows_processable Library.ascii_inCalendar hdecoded
    (by simp [hlength, maxSize])
  exact ⟨os, hos, hsources, hsilver 0, hgold 0 _ (by simp)⟩

end Vessel

end Lakehouse

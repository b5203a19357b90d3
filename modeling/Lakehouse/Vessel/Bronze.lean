import Lakehouse.Vessel.Ais
/-!
# Vessel observations

The decoding of a signed envelope of `vessels.events` into a bronze row.
A payload gives the position and the motion itself; where it carries raw
NMEA sentences too, the decoded report must agree with it and then takes
its place, field by field.
-/

namespace Lakehouse

/-- `datetime.fromisoformat` returns instants of the calendar. -/
def Library.InCalendar (L : Library) : Prop :=
  ∀ t us, L.fromIsoformat t = .aware us → IsoTime.bounds.1 ≤ us ∧ us ≤ IsoTime.bounds.2

namespace Vessel

variable {F : Type} [PyFloat F] [PyMath F] (L : Library)

def vesselObservationEventType : Text := lit "vessels.observation.v1"

/-- `COORDINATE_MATCH_TOLERANCE`. -/
def coordinateMatchTolerance : F := PyFloat.ofNumeral ⟨false, lit "1", none, some (.minus, lit "3")⟩

/-- **`_require_finite_number`.** -/
def requireFiniteNumber (payload : Members (Doc F)) (key : Text) : Except PyError F :=
  let refused : PyError :=
    .valueError (lit "vessel observation " ++ key ++ lit " must be a finite number")
  match payload.get key with
  | some (.num (.int n)) => PyObject.floatOfInt n
  | some (.num (.float x)) => if PyFloat.isFinite x then .ok x else .error refused
  | _ => .error refused

/-- **`_optional_finite_number`.** -/
def optionalFiniteNumber (payload : Members (Doc F)) (key : Text) : Except PyError (Option F) :=
  match payload.get key with
  | none | some .null => .ok none
  | some _ => do return some (← requireFiniteNumber payload key)

/-- **`_validate_coordinates`.** -/
def validateCoordinates (latitude longitude : F) : Except PyError Unit :=
  if Ingest.within (-90) 90 latitude = false then
    .error (.valueError (lit "vessel observation latitude must be within [-90, 90]"))
  else if Ingest.within (-180) 180 longitude = false then
    .error (.valueError (lit "vessel observation longitude must be within [-180, 180]"))
  else .ok ()

/-- The validated coordinate and motion view of a payload. -/
structure VesselPayload (F : Type) where
  mmsi : Text
  latitude : F
  longitude : F
  speedKnots : Option F
  headingDegrees : Option F
  decodeSource : Text

/-- `abs(x - y) > COORDINATE_MATCH_TOLERANCE`. -/
def disagrees (x y : F) : Bool :=
  PyFloat.lt coordinateMatchTolerance (PyFloat.abs (PyFloat.sub x y))

/-- The report takes the place of what the payload says. -/
def VesselPayload.override (p : VesselPayload F) (report : AisPositionReport F) :
    Except PyError (VesselPayload F) :=
  if report.mmsi ≠ p.mmsi then
    .error (.valueError (lit "payload mmsi does not match the decoded AIS mmsi"))
  else if disagrees report.latitude p.latitude || disagrees report.longitude p.longitude then
    .error (.valueError
      (lit "payload coordinates disagree with the decoded AIS position (fail-closed)"))
  else .ok { p with
    latitude := report.latitude
    longitude := report.longitude
    speedKnots := report.speedKnots <|> p.speedKnots
    headingDegrees := report.headingDegrees <|> p.headingDegrees
    decodeSource := lit "ais-nmea" }

/-- What the payload says itself. -/
def statedPayload (payload : Members (Doc F)) : Except PyError (VesselPayload F) := do
  let mmsi ← normalizeMmsi (.ofDoc (Ingest.fieldOrNone payload (lit "mmsi")))
  let latitude ← requireFiniteNumber payload (lit "latitude")
  let longitude ← requireFiniteNumber payload (lit "longitude")
  validateCoordinates latitude longitude
  let speedKnots ← optionalFiniteNumber payload (lit "speedKnots")
  let headingDegrees ← optionalFiniteNumber payload (lit "headingDegrees")
  if speedKnots.any (fun x => PyFloat.lt x (PyFloat.ofInt 0)) then
    .error (.valueError (lit "vessel observation speedKnots must not be negative"))
  else if headingDegrees.all isHeading = false then
    .error (.valueError (lit "vessel observation headingDegrees must be within [0, 360)"))
  else .ok { mmsi, latitude, longitude, speedKnots, headingDegrees, decodeSource := lit "payload" }

/-- **`decode_vessel_payload`.** -/
def decodeVesselPayload (pyais : Pyais F) (payload : Members (Doc F)) :
    Except PyError (VesselPayload F) := do
  let stated ← statedPayload payload
  match Ingest.fieldOrNone payload (lit "nmeaSentences") with
  | .null => return stated
  | sentences => stated.override (← decodeAivdm L pyais sentences)

/-- **A bronze row.** -/
structure Observation (F : Type) where
  eventId : Text
  mmsi : Text
  occurredAt : ℤ
  recordedAt : ℤ
  latitude : F
  longitude : F
  speedKnots : Option F
  headingDegrees : Option F
  decodeSource : Text
  producer : Text
  sourceRecordReference : Text
  payloadJson : Text
  ingestedAt : ℤ

/-- `json.loads(canonical_json(document), parse_int=float, ...)`: the parse
the signature is checked on. -/
def signedViewOf (document : Members (Doc F)) : Except PyError (Members (Doc F)) := do
  Ingest.signedView (← canonicalJson (.obj document))

/-- The schema check. -/
def checkVesselSchema (schemaErrors : Members (Doc F) → List Text) (document : Members (Doc F)) :
    Except PyError Unit :=
  if schemaErrors document = [] then .ok ()
  else .error (.valueError (lit "vessel envelope fails event-envelope validation: " ++
    Text.join (lit "; ") (schemaErrors document)))

/-- The event of a verified envelope, checked to be an observation. -/
def observationEvent (document : Members (Doc F)) : Except PyError (Ingest.InternalEvent F) := do
  let event ← Ingest.mapCanonicalEnvelope L document
  if event.eventType ≠ vesselObservationEventType then
    .error (.valueError (lit "vessel observation event type must be 'vessels.observation.v1', got " ++
      L.reprText event.eventType))
  else return event

/-- The row of an observation event, at the instant `now`. -/
def observationRow (now : ℤ) (event : Ingest.InternalEvent F) (payload : VesselPayload F) :
    Except PyError (Observation F) := do
  let occurredAt ← Ingest.parseTimestamp L event.occurredAt (lit "occurred_at")
  let recordedAt ← Ingest.parseTimestamp L event.recordedAt (lit "recorded_at")
  if recordedAt < occurredAt then
    .error (.valueError (lit "occurred_at must not be later than recorded_at"))
  else do
    let text := fun (t name : Text) => Ingest.requireCanonicalText L (.str t : Doc F) name
    return {
      eventId := ← text event.eventId (lit "event_id") 256
      mmsi := payload.mmsi
      occurredAt
      recordedAt
      latitude := payload.latitude
      longitude := payload.longitude
      speedKnots := payload.speedKnots
      headingDegrees := payload.headingDegrees
      decodeSource := payload.decodeSource
      producer := ← text event.producer (lit "producer") 256
      sourceRecordReference :=
        ← text event.sourceRecordReference (lit "source_record_reference") 512
      payloadJson := ← canonicalJson (.obj event.payload)
      ingestedAt := now }

/-- **`decode_vessel_observation`.** -/
def decodeVesselObservation (E : Ed25519) (directory : Members E.PublicKey)
    (schemaErrors : Members (Doc F) → List Text) (pyais : Pyais F) (now : ℤ)
    (document : Members (Doc F)) : Except PyError (Observation F) := do
  checkVesselSchema schemaErrors document
  let view ← signedViewOf document
  let _ ← Envelope.verify E directory view
  let event ← observationEvent L document
  let payload ← decodeVesselPayload L pyais (event.payload.without (lit "provenance"))
  observationRow L now event payload

/-! ## What a decoded row holds -/

section Valid

omit [PyMath F] in
/-- A text that matches is an MMSI. -/
theorem matchMmsi_eq_ok {t u : Text} (h : matchMmsi t = .ok u) : IsMmsi u := by
  unfold matchMmsi at h
  split_ifs at h with ht
  cases h
  exact ht

omit [PyFloat F] [PyMath F] in
/-- A normalized MMSI is one. -/
theorem normalizeMmsi_eq_ok {v : PyObject F} {t : Text} (h : normalizeMmsi v = .ok t) :
    IsMmsi t := by
  cases v with
  | int n =>
    obtain ⟨u, -, h⟩ := bind_eq_ok.1 h
    exact matchMmsi_eq_ok h
  | str u => exact matchMmsi_eq_ok h
  | none | bool _ | float _ | datetime _ | other _ => cases h

omit [PyMath F] in
/-- An integer that converts gives a finite float. -/
theorem floatOfInt_eq_ok {n : ℤ} {x : F} (h : PyObject.floatOfInt n = .ok x) :
    PyFloat.isFinite x = true := by
  unfold PyObject.floatOfInt at h
  split_ifs at h with hx
  cases h
  exact hx

omit [PyMath F] in
/-- A required number is finite. -/
theorem requireFiniteNumber_eq_ok {payload : Members (Doc F)} {key : Text} {x : F}
    (h : requireFiniteNumber payload key = .ok x) : PyFloat.isFinite x = true := by
  unfold requireFiniteNumber at h
  split at h
  · exact floatOfInt_eq_ok h
  · split_ifs at h with hx
    cases h
    exact hx
  · cases h

omit [PyMath F] in
/-- An optional number is finite, where there is one. -/
theorem optionalFiniteNumber_eq_ok {payload : Members (Doc F)} {key : Text} {o : Option F}
    (h : optionalFiniteNumber payload key = .ok o) : ∀ x ∈ o, PyFloat.isFinite x = true := by
  unfold optionalFiniteNumber at h
  split at h
  · cases h
    exact nofun
  · cases h
    exact nofun
  · obtain ⟨x, hx, h⟩ := bind_eq_ok.1 h
    cases h
    rintro _ ⟨⟩
    exact requireFiniteNumber_eq_ok hx

omit [PyMath F] in
/-- The coordinates accepted are those on the globe. -/
theorem validateCoordinates_eq_ok {latitude longitude : F} :
    validateCoordinates latitude longitude = .ok () ↔
      Ingest.within (-90) 90 latitude = true ∧ Ingest.within (-180) 180 longitude = true := by
  unfold validateCoordinates
  split_ifs with h h' <;> simp_all

/-- A number or none, finite and admitted. -/
theorem optionalField_eq_ok {unavailable : F} {admits : F → Bool} {notNumeric outOfRange : Text}
    {v : PyObject F} {o : Option F}
    (h : optionalField unavailable admits notNumeric outOfRange v = .ok o) :
    ∀ x ∈ o, PyFloat.isFinite x = true ∧ admits x = true := by
  unfold optionalField at h
  split at h
  · cases h
    exact nofun
  · split_ifs at h
    obtain ⟨x, -, h⟩ := bind_eq_ok.1 h
    split_ifs at h with hle hx
    · cases h
      exact nofun
    · cases h
      rintro _ ⟨⟩
      exact Bool.and_eq_true_iff.1 hx

variable [LawfulFloat F]

open LawfulFloat (val)

/-- A finite float between two integers. -/
def InRange (low high : ℤ) (x : F) : Prop :=
  PyFloat.isFinite x = true ∧ (low : ℚ) ≤ val x ∧ val x ≤ high

omit [PyMath F] in
/-- A finite float is within bounds where its value is. -/
theorem within_iff {low high : ℤ} (hl : low.natAbs ≤ 2 ^ 53) (hh : high.natAbs ≤ 2 ^ 53) {x : F}
    (hx : PyFloat.isFinite x = true) : Ingest.within low high x = true ↔ InRange low high x := by
  rw [Ingest.within, Bool.and_eq_true, PyFloat.le_iff (LawfulFloat.finite_ofInt hl) hx,
    PyFloat.le_iff hx (LawfulFloat.finite_ofInt hh), LawfulFloat.val_ofInt hl,
    LawfulFloat.val_ofInt hh, InRange]
  exact ⟨fun h => ⟨hx, h⟩, fun h => h.2⟩

omit [PyMath F] in
/-- A heading is from zero to less than a full turn. -/
theorem isHeading_iff {x : F} (hx : PyFloat.isFinite x = true) :
    isHeading x = true ↔ 0 ≤ val x ∧ val x < 360 := by
  rw [isHeading, Bool.and_eq_true, PyFloat.le_iff (LawfulFloat.finite_ofInt (by decide)) hx,
    LawfulFloat.lt_iff hx (LawfulFloat.finite_ofInt (by decide)),
    LawfulFloat.val_ofInt (by decide), LawfulFloat.val_ofInt (by decide)]
  norm_num

omit [PyMath F] in
/-- A finite float is not negative where its value is not. -/
theorem nonneg_iff {x : F} (hx : PyFloat.isFinite x = true) :
    PyFloat.lt x (PyFloat.ofInt 0) = false ↔ 0 ≤ val x := by
  rw [PyFloat.lt_eq_false_iff hx (LawfulFloat.finite_ofInt (by decide)),
    LawfulFloat.val_ofInt (by decide), Int.cast_zero]

/-- **A position and a motion in range**: the speed is null or finite and not
negative, the heading null or in `[0, 360)`. -/
structure Plausible (latitude longitude : F) (speedKnots headingDegrees : Option F) : Prop where
  latitude : InRange (-90) 90 latitude
  longitude : InRange (-180) 180 longitude
  speedKnots : ∀ x ∈ speedKnots, PyFloat.isFinite x = true ∧ 0 ≤ val x
  headingDegrees : ∀ x ∈ headingDegrees, PyFloat.isFinite x = true ∧ 0 ≤ val x ∧ val x < 360

/-- A position read is on the globe. -/
theorem position_eq_ok {fields : Members (PyObject F)} {lat lon : F}
    (h : position fields = .ok (lat, lon)) : InRange (-90) 90 lat ∧ InRange (-180) 180 lon := by
  unfold position at h
  split at h
  · cases h
  · cases h
  · obtain ⟨x, -, h⟩ := bind_eq_ok.1 h
    obtain ⟨-, h⟩ := guard_eq_ok.1 h
    obtain ⟨y, -, h⟩ := bind_eq_ok.1 h
    obtain ⟨-, h⟩ := guard_eq_ok.1 h
    obtain ⟨hlat, h⟩ := guard_eq_ok.1 h
    obtain ⟨hlon, h⟩ := guard_eq_ok.1 h
    cases h
    rw [Bool.not_eq_false, Bool.and_eq_true] at hlat hlon
    exact ⟨(within_iff (by decide) (by decide) hlat.1).1 hlat.2,
      (within_iff (by decide) (by decide) hlon.1).1 hlon.2⟩

/-- **What the AIS decoder admits**, whatever the library returned. -/
theorem decodeAivdm_eq_ok {pyais : Pyais F} {sentences : Doc F} {report : AisPositionReport F}
    (h : decodeAivdm L pyais sentences = .ok report) :
    Plausible report.latitude report.longitude report.speedKnots report.headingDegrees := by
  obtain ⟨_, -, h⟩ := bind_eq_ok.1 h
  obtain ⟨fields, -, h⟩ := bind_eq_ok.1 h
  obtain ⟨_, -, h⟩ := bind_eq_ok.1 h
  split_ifs at h
  obtain ⟨_, -, h⟩ := bind_eq_ok.1 h
  obtain ⟨⟨latitude, longitude⟩, hposition, h⟩ := bind_eq_ok.1 h
  obtain ⟨_, hspeed, h⟩ := bind_eq_ok.1 h
  obtain ⟨_, hheading, h⟩ := bind_eq_ok.1 h
  obtain ⟨_, -, h⟩ := bind_eq_ok.1 h
  obtain ⟨_, -, h⟩ := bind_eq_ok.1 h
  cases h
  obtain ⟨hlat, hlon⟩ := position_eq_ok hposition
  refine ⟨hlat, hlon, fun x hx => ?_, fun x hx => ?_⟩
  · obtain ⟨hfin, hpos⟩ := optionalField_eq_ok hspeed x hx
    exact ⟨hfin, (nonneg_iff hfin).1 (by simpa using hpos)⟩
  · obtain ⟨hfin, hin⟩ := optionalField_eq_ok hheading x hx
    exact ⟨hfin, (isHeading_iff hfin).1 hin⟩

/-- A payload with its MMSI, in range. -/
structure VesselPayload.Valid (p : VesselPayload F) : Prop where
  mmsi : IsMmsi p.mmsi
  motion : Plausible p.latitude p.longitude p.speedKnots p.headingDegrees

omit [PyMath F] in
/-- A payload that states its fields is valid. -/
theorem statedPayload_eq_ok {payload : Members (Doc F)} {p : VesselPayload F}
    (h : statedPayload payload = .ok p) : p.Valid := by
  obtain ⟨mmsi, hmmsi, h⟩ := bind_eq_ok.1 h
  obtain ⟨latitude, hlatitude, h⟩ := bind_eq_ok.1 h
  obtain ⟨longitude, hlongitude, h⟩ := bind_eq_ok.1 h
  obtain ⟨_, hcoordinates, h⟩ := bind_eq_ok.1 h
  obtain ⟨speedKnots, hspeed, h⟩ := bind_eq_ok.1 h
  obtain ⟨headingDegrees, hheading, h⟩ := bind_eq_ok.1 h
  split_ifs at h with hneg hout
  cases h
  obtain ⟨hlat, hlon⟩ := validateCoordinates_eq_ok.1 hcoordinates
  refine ⟨normalizeMmsi_eq_ok hmmsi,
    (within_iff (by decide) (by decide) (requireFiniteNumber_eq_ok hlatitude)).1 hlat,
    (within_iff (by decide) (by decide) (requireFiniteNumber_eq_ok hlongitude)).1 hlon,
    fun x hx => ?_, fun x hx => ?_⟩
  · have hfin := optionalFiniteNumber_eq_ok hspeed x hx
    cases hx
    exact ⟨hfin, (nonneg_iff hfin).1 (by simpa using hneg)⟩
  · have hfin := optionalFiniteNumber_eq_ok hheading x hx
    cases hx
    exact ⟨hfin, (isHeading_iff hfin).1 (by simpa using hout)⟩

omit [PyMath F] in
/-- A report in range takes nothing out of range. -/
theorem VesselPayload.override_eq_ok {p q : VesselPayload F} {report : AisPositionReport F}
    (hp : p.Valid)
    (hreport : Plausible report.latitude report.longitude report.speedKnots report.headingDegrees)
    (h : p.override report = .ok q) : q.Valid := by
  have hor : ∀ {P : F → Prop} {a b : Option F}, (∀ x ∈ a, P x) → (∀ x ∈ b, P x) →
      ∀ x ∈ (a <|> b), P x := by
    intro P a b ha hb
    cases a with
    | none => exact hb
    | some y => exact ha
  unfold VesselPayload.override at h
  split_ifs at h
  cases h
  exact ⟨hp.mmsi, hreport.latitude, hreport.longitude,
    hor hreport.speedKnots hp.motion.speedKnots,
    hor hreport.headingDegrees hp.motion.headingDegrees⟩

/-- **A payload decoded is valid**, whichever way it is stated. -/
theorem decodeVesselPayload_eq_ok {pyais : Pyais F} {payload : Members (Doc F)}
    {p : VesselPayload F} (h : decodeVesselPayload L pyais payload = .ok p) : p.Valid := by
  obtain ⟨stated, hstated, h⟩ := bind_eq_ok.1 h
  have hvalid := statedPayload_eq_ok hstated
  split at h
  · cases h
    exact hvalid
  · obtain ⟨report, hreport, h⟩ := bind_eq_ok.1 h
    exact VesselPayload.override_eq_ok hvalid (decodeAivdm_eq_ok L hreport) h

/-- **What a bronze row holds.** Its event id is canonical and its instant
is one of the calendar. -/
structure Observation.Valid (L : Library) (o : Observation F) : Prop where
  mmsi : IsMmsi o.mmsi
  motion : Plausible o.latitude o.longitude o.speedKnots o.headingDegrees
  eventId : Ingest.requireCanonicalText L (.str o.eventId : Doc F) (lit "event_id") 256 =
    .ok o.eventId
  occurredAt : IsoTime.bounds.1 ≤ o.occurredAt ∧ o.occurredAt ≤ IsoTime.bounds.2

omit [PyFloat F] [PyMath F] [LawfulFloat F] in
/-- A timestamp accepted is one that states its offset. -/
theorem parseTimestamp_eq_ok {value : Doc F} {name : Text} {us : ℤ}
    (h : Ingest.parseTimestamp L value name = .ok us) : ∃ t, L.fromIsoformat t = .aware us := by
  unfold Ingest.parseTimestamp at h
  simp only at h
  split at h
  · split_ifs at h
    split at h
    · cases h
    · cases h
    · cases h
    · next t _ us' hus =>
      cases h
      exact ⟨_, hus⟩
  · cases h

/-- **Every decoded row is valid.** -/
theorem decodeVesselObservation_eq_ok (hL : L.InCalendar) {E : Ed25519} {directory : Members E.PublicKey}
    {schemaErrors : Members (Doc F) → List Text} {pyais : Pyais F} {now : ℤ}
    {document : Members (Doc F)} {o : Observation F}
    (h : decodeVesselObservation L E directory schemaErrors pyais now document = .ok o) :
    o.Valid L := by
  obtain ⟨_, -, h⟩ := bind_eq_ok.1 h
  obtain ⟨_, -, h⟩ := bind_eq_ok.1 h
  obtain ⟨_, -, h⟩ := bind_eq_ok.1 h
  obtain ⟨event, -, h⟩ := bind_eq_ok.1 h
  obtain ⟨payload, hpayload, h⟩ := bind_eq_ok.1 h
  obtain ⟨occurredAt, hoccurred, h⟩ := bind_eq_ok.1 h
  obtain ⟨_, -, h⟩ := bind_eq_ok.1 h
  split_ifs at h
  obtain ⟨eventId, hid, h⟩ := bind_eq_ok.1 h
  obtain ⟨_, -, h⟩ := bind_eq_ok.1 h
  obtain ⟨_, -, h⟩ := bind_eq_ok.1 h
  obtain ⟨_, -, h⟩ := bind_eq_ok.1 h
  cases h
  have hvalid := decodeVesselPayload_eq_ok L hpayload
  obtain ⟨heq, -⟩ := Ingest.requireCanonicalText_eq_ok L hid
  cases heq
  obtain ⟨t, ht⟩ := parseTimestamp_eq_ok L hoccurred
  exact ⟨hvalid.mmsi, hvalid.motion, hid, hL t _ ht⟩

end Valid

end Vessel

end Lakehouse

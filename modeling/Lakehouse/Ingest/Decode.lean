import Lakehouse.Ingest.Event
import Lakehouse.Ingest.Fields
import Lakehouse.Storage.Segregation
import Lakehouse.Signing.Envelope
/-!
# Decoding a message

`decodeEvent` parses the bytes of a message twice: exactly, for what is
persisted, and with every number widened to a double, for the signature.
The verified document is projected into the internal event shape and
normalized into a row. The schema validator is a parameter: the messages
of its errors, in order.
-/

namespace Lakehouse

namespace Ingest

variable {F : Type} [PyFloat F] (L : Library)

def maxMessageBytes : ℕ := 2 * 1024 * 1024
def maxPayloadJsonBytes : ℕ := 1024 * 1024

/-- `document[key]`. -/
def field (document : Members (Doc F)) (key : Text) : Except PyError (Doc F) :=
  match document.get key with
  | some v => .ok v
  | none => .error (.keyError key)

/-- `document.get(key)`. -/
def fieldOrNone (document : Members (Doc F)) (key : Text) : Doc F :=
  (document.get key).getD .null

/-- **The internal event shape.** The identities are the producer's. -/
structure InternalEvent (F : Type) where
  eventId : Text
  eventType : Text
  producer : Text
  occurredAt : Doc F
  recordedAt : Doc F
  dataClassification : Text
  sourceSystem : Text
  sourceRecordReference : Text
  correlationId : Doc F
  payload : Members (Doc F)
  /-- `None` where the envelope has no label. -/
  recordClassification : Doc F

/-- `repr(value)` of a scalar. -/
def reprScalar : Doc F → Text
  | .null => lit "None"
  | .bool b => if b then lit "True" else lit "False"
  | .num (.int n) => Text.ofInt n
  | .num (.float x) => PyFloat.repr x
  | .str t => L.reprText t
  | .arr _ | .obj _ => []

/-- `map_canonical_classification(value, event_type)` of any value: a list
or a dict is unhashable. -/
def mapClassification (value : Doc F) (eventType : Text) : Except PyError Text :=
  match value with
  | .str classification => Segregation.mapCanonicalClassification L classification eventType
  | .arr _ | .obj _ => .error .typeError
  | v => .error (.boundaryViolation (lit "canonical classification " ++ reprScalar L v ++
      lit " is not in the platform vocabulary"))

/-- The primary resource of the message bundle. -/
def primaryResource (bundle : Doc F) : Except PyError (Members (Doc F)) :=
  match bundle with
  | .obj bundle =>
    match Members.get (lit "entry") bundle with
    | some (.arr (.obj firstEntry :: _)) =>
      match Members.get (lit "resource") firstEntry with
      | some (.obj resource) =>
        if resource = [] then
          .error (.valueError (lit "fhir message entry resource must be a non-empty object"))
        else if (Members.get (lit "provenance") resource).isSome then
          .error (.valueError (lit "fhir message entry resource must not redefine provenance"))
        else .ok resource
      | _ => .error (.valueError (lit "fhir message entry resource must be a non-empty object"))
    | some (.arr (_ :: _)) => .error (.valueError (lit "fhir bundle entries must be objects"))
    | _ => .error (.valueError (lit "fhir bundle must carry at least one message entry"))
  | _ => .error (.valueError (lit "fhir must be a FHIR R4 message Bundle object"))

/-- The provenance block. -/
def provenanceBlock (value : Doc F) : Except PyError (Members (Doc F)) :=
  match value with
  | .obj provenance => .ok provenance
  | _ => .error (.valueError (lit "provenance must be an object"))

/-- **`map_canonical_envelope`.** -/
def mapCanonicalEnvelope (document : Members (Doc F)) : Except PyError (InternalEvent F) := do
  let eventId ← requireCanonicalText L (← field document (lit "eventId")) (lit "eventId") 256
  let eventType ←
    requireCanonicalText L (← field document (lit "eventType")) (lit "eventType") 128
  let producer ← requireCanonicalText L (← field document (lit "producer")) (lit "producer") 256
  let resource ← primaryResource (← field document (lit "fhir"))
  let provenance ← provenanceBlock (← field document (lit "provenance"))
  let ledgerCommitHash ← requireCanonicalText L (← field provenance (lit "ledgerCommitHash"))
    (lit "provenance.ledgerCommitHash") 512
  let occurredAt ← field document (lit "occurredAt")
  let dataClassification ←
    mapClassification L (← field document (lit "classification")) eventType
  return {
    eventId, eventType, producer
    occurredAt
    recordedAt := occurredAt
    dataClassification
    sourceSystem := producer
    sourceRecordReference := ledgerCommitHash
    correlationId := fieldOrNone document (lit "correlationId")
    payload := resource.set (lit "provenance") (.obj provenance)
    recordClassification := fieldOrNone document (lit "recordClassification") }

variable {L}

/-- What an internal event takes from its document. -/
structure Projects (L : Library) (d : Members (Doc F)) (e : InternalEvent F)
    (resource provenance : Members (Doc F)) : Prop where
  eventId : ∃ v, field d (lit "eventId") = .ok v ∧
    requireCanonicalText L v (lit "eventId") 256 = .ok e.eventId
  eventType : ∃ v, field d (lit "eventType") = .ok v ∧
    requireCanonicalText L v (lit "eventType") 128 = .ok e.eventType
  producer : ∃ v, field d (lit "producer") = .ok v ∧
    requireCanonicalText L v (lit "producer") 256 = .ok e.producer
  fhir : ∃ v, field d (lit "fhir") = .ok v ∧ primaryResource v = .ok resource
  block : ∃ v, field d (lit "provenance") = .ok v ∧ provenanceBlock v = .ok provenance
  ledgerCommitHash : ∃ v, field provenance (lit "ledgerCommitHash") = .ok v ∧
    requireCanonicalText L v (lit "provenance.ledgerCommitHash") 512 = .ok e.sourceRecordReference
  occurredAt : field d (lit "occurredAt") = .ok e.occurredAt
  recordedAt : e.recordedAt = e.occurredAt
  classification : ∃ v, field d (lit "classification") = .ok v ∧
    mapClassification L v e.eventType = .ok e.dataClassification
  sourceSystem : e.sourceSystem = e.producer
  correlationId : e.correlationId = fieldOrNone d (lit "correlationId")
  payload : e.payload = resource.set (lit "provenance") (.obj provenance)
  recordClassification : e.recordClassification = fieldOrNone d (lit "recordClassification")

theorem mapCanonicalEnvelope_eq_ok {d : Members (Doc F)} {e : InternalEvent F}
    (h : mapCanonicalEnvelope L d = .ok e) :
    ∃ resource provenance, Projects L d e resource provenance := by
  obtain ⟨v₁, hv₁, h⟩ := bind_eq_ok.1 h
  obtain ⟨eventId, h₁, h⟩ := bind_eq_ok.1 h
  obtain ⟨v₂, hv₂, h⟩ := bind_eq_ok.1 h
  obtain ⟨eventType, h₂, h⟩ := bind_eq_ok.1 h
  obtain ⟨v₃, hv₃, h⟩ := bind_eq_ok.1 h
  obtain ⟨producer, h₃, h⟩ := bind_eq_ok.1 h
  obtain ⟨v₄, hv₄, h⟩ := bind_eq_ok.1 h
  obtain ⟨resource, h₄, h⟩ := bind_eq_ok.1 h
  obtain ⟨v₅, hv₅, h⟩ := bind_eq_ok.1 h
  obtain ⟨provenance, h₅, h⟩ := bind_eq_ok.1 h
  obtain ⟨v₆, hv₆, h⟩ := bind_eq_ok.1 h
  obtain ⟨commit, h₆, h⟩ := bind_eq_ok.1 h
  obtain ⟨occurredAt, h₇, h⟩ := bind_eq_ok.1 h
  obtain ⟨v₈, hv₈, h⟩ := bind_eq_ok.1 h
  obtain ⟨label, h₈, h⟩ := bind_eq_ok.1 h
  cases h
  exact ⟨resource, provenance, ⟨v₁, hv₁, h₁⟩, ⟨v₂, hv₂, h₂⟩, ⟨v₃, hv₃, h₃⟩, ⟨v₄, hv₄, h₄⟩,
    ⟨v₅, hv₅, h₅⟩, ⟨v₆, hv₆, h₆⟩, h₇, rfl, ⟨v₈, hv₈, h₈⟩, rfl, rfl, rfl, rfl⟩

variable (L)

/-! ## Normalization -/

/-- `value.replace("Z", "+00:00")`. -/
def replaceZ (t : Text) : Text := t.flatMap fun c => if c = 0x5A then lit "+00:00" else [c]

/-- **`parse_timestamp`**, to microseconds in UTC. -/
def parseTimestamp (value : Doc F) (fieldName : Text) : Except PyError ℤ :=
  let refused := PyError.valueError (fieldName ++ lit " must be an RFC 3339 timestamp")
  match value with
  | .str t =>
    if 0x54 ∉ t then .error refused
    else match L.fromIsoformat (replaceZ t) with
      | .invalid => .error refused
      | .naive => .error (.valueError (fieldName ++ lit " must include an offset or Z"))
      | .overflow => .error .overflowError
      | .aware us => .ok us
  | _ => .error refused

/-- `Clearance`, from the lowest level to the highest. -/
def clearanceNames : List Text :=
  [lit "UNCLASSIFIED", lit "RESTRICTED", lit "CONFIDENTIAL", lit "SECRET"]

/-- `text.upper()`, as far as a result in ASCII tells: besides the ASCII
letters, the few others whose upper case is ASCII. -/
def upperAscii (t : Text) : Text :=
  t.flatMap fun c =>
    if 0x61 ≤ c ∧ c ≤ 0x7A then [c - 0x20]
    else match c with
    | 0x131 => lit "I"
    | 0x17F => lit "S"
    | 0xDF => lit "SS"
    | 0xFB00 => lit "FF"
    | 0xFB01 => lit "FI"
    | 0xFB02 => lit "FL"
    | 0xFB03 => lit "FFI"
    | 0xFB04 => lit "FFL"
    | 0xFB05 | 0xFB06 => lit "ST"
    | c => [c]

/-- `Clearance.from_label(label).label`. -/
def clearanceLabel (label : Text) : Except PyError Text :=
  if label = [] ∨ label ≠ label.strip then
    .error (.valueError (lit "clearance labels must be canonical non-empty text"))
  else if upperAscii label ∈ clearanceNames then .ok (upperAscii label)
  else .error (.valueError (lit "clearance label " ++ L.reprText label ++ lit " is not one of [" ++
    Text.join (lit ", ") (clearanceNames.map L.reprText) ++ lit "]; access fails closed"))

/-- A coordinate or a motion value: an `int` or a `float`. -/
def motionValue (payload : Members (Doc F)) (key : Text) : Except PyError (PyNum F) :=
  match payload.get key with
  | some (.num n) => .ok n
  | _ => .error (.valueError
      (lit "maritime position coordinates and motion values must be finite numbers"))

/-- `float(value)`, checked to be finite. -/
def finiteFloat : PyNum F → Except PyError F
  | .int n => if PyFloat.isFinite (PyFloat.ofInt n : F) then .ok (PyFloat.ofInt n)
      else .error .overflowError
  | .float x => if PyFloat.isFinite x then .ok x
      else .error (.valueError
        (lit "maritime position coordinates and motion values must be finite numbers"))

/-- The fields of a position, sorted. -/
def positionFields : List Text :=
  [lit "asset_id", lit "heading_degrees", lit "latitude", lit "longitude", lit "speed_knots"]

/-- `low <= x <= high`. -/
def within (low high : ℤ) (x : F) : Bool :=
  PyFloat.le (PyFloat.ofInt low) x && PyFloat.le x (PyFloat.ofInt high)

/-- **`validate_maritime_position`.** -/
def validateMaritimePosition (payload : Members (Doc F)) : Except PyError Unit :=
  let missing := positionFields.filter fun key => (payload.get key).isNone
  if missing ≠ [] then
    .error (.valueError (lit "maritime.position.v1 payload is missing fields: [" ++
      Text.join (lit ", ") (missing.map L.reprText) ++ lit "]"))
  else do
    let _ ← requireCanonicalText L (fieldOrNone payload (lit "asset_id")) (lit "asset_id") 256
    let latitude ← motionValue payload (lit "latitude")
    let longitude ← motionValue payload (lit "longitude")
    let speedKnots ← motionValue payload (lit "speed_knots")
    let headingDegrees ← motionValue payload (lit "heading_degrees")
    let latitude ← finiteFloat latitude
    let longitude ← finiteFloat longitude
    let speedKnots ← finiteFloat speedKnots
    let headingDegrees ← finiteFloat headingDegrees
    if within (-90) 90 latitude = false then
      .error (.valueError (lit "latitude must be between -90 and 90 degrees"))
    else if within (-180) 180 longitude = false then
      .error (.valueError (lit "longitude must be between -180 and 180 degrees"))
    else if PyFloat.lt speedKnots (PyFloat.ofInt 0) then
      .error (.valueError (lit "speed_knots must not be negative"))
    else if PyFloat.le (PyFloat.ofInt 0) headingDegrees &&
        PyFloat.lt headingDegrees (PyFloat.ofInt 360) then .ok ()
    else .error (.valueError (lit "heading_degrees must be in the range [0, 360)"))

/-- The correlation id of a row. -/
def normalizeCorrelationId : Doc F → Except PyError (Option Text)
  | .null => .ok none
  | v => do return some (← requireCanonicalText L v (lit "correlation_id") 256)

/-- The clearance label of a row. -/
def normalizeRecordClassification : Doc F → Except PyError (Option Text)
  | .null => .ok none
  | v => do
    let label ← requireCanonicalText L v (lit "record_classification") 32
    return some (← clearanceLabel L label)

/-- The retained payload. -/
def payloadText (eventType : Text) (payload : Members (Doc F)) : Except PyError Text := do
  let payloadJson ← canonicalJson (.obj payload)
  if eventType = lit "maritime.position.v1" then validateMaritimePosition L payload
  let encoded ← encodeUtf8 payloadJson
  if maxPayloadJsonBytes < encoded.length then
    .error (.valueError (lit "payload exceeds 1048576 canonical JSON bytes"))
  else .ok payloadJson

/-- **`normalize_event`**, at the instant `now`. -/
def normalizeEvent (now : ℤ) (event : InternalEvent F) : Except PyError Event := do
  let occurredAt ← parseTimestamp L event.occurredAt (lit "occurred_at")
  let recordedAt ← parseTimestamp L event.recordedAt (lit "recorded_at")
  if recordedAt < occurredAt then
    .error (.valueError (lit "occurred_at must not be later than recorded_at"))
  else do
    let payloadJson ← payloadText L event.eventType event.payload
    let correlationId ← normalizeCorrelationId L event.correlationId
    let recordClassification ← normalizeRecordClassification L event.recordClassification
    let text := fun (t name : Text) => requireCanonicalText L (.str t : Doc F) name
    return {
      eventId := ← text event.eventId (lit "event_id") 256
      eventType := ← text event.eventType (lit "event_type") 128
      producer := ← text event.producer (lit "producer") 256
      occurredAt
      recordedAt
      dataClassification := event.dataClassification
      sourceSystem := ← text event.sourceSystem (lit "source_system") 256
      sourceRecordReference :=
        ← text event.sourceRecordReference (lit "source_record_reference") 512
      correlationId
      payloadJson
      ingestedAt := now
      recordClassification }

/-! ## `decode_event` -/

/-- The exact parse of a message. -/
def parseMessage (text : Text) : Except PyError (Members (Doc F)) :=
  match Json.loads (rejecting (defaultHooks (F := F))) text with
  | .error (.jsonDecodeError message) =>
    .error (.valueError (lit "Kafka message value is not valid JSON: " ++ message))
  | .error e => .error e
  | .ok (.obj document) => .ok document
  | .ok _ => .error (.valueError (lit "Kafka message value must be a JSON object"))

/-- The parse the signature is checked on, with every number a double. -/
def signedView (text : Text) : Except PyError (Members (Doc F)) := do
  match ← Json.loads (rejecting (floatHooks (F := F))) text with
  | .obj view => .ok view
  | _ => .error .typeError

/-- The schema check. -/
def checkSchema (schemaErrors : Members (Doc F) → List Text) (document : Members (Doc F)) :
    Except PyError Unit :=
  if schemaErrors document = [] then .ok ()
  else .error (.valueError (lit "Kafka event fails event-envelope validation: " ++
    Text.join (lit "; ") (schemaErrors document)))

/-- The text of a message value. -/
def messageText (value : Option Bytes) : Except PyError Text :=
  match value with
  | none => .error (.valueError (lit "Kafka message value must contain 1 to 2097152 bytes"))
  | some bytes =>
    if bytes = [] ∨ maxMessageBytes < bytes.length then
      .error (.valueError (lit "Kafka message value must contain 1 to 2097152 bytes"))
    else match decodeUtf8 bytes with
      | .error _ => .error (.valueError (lit "Kafka message value is not valid UTF-8"))
      | .ok text => .ok text

/-- What a message must pass before its fields are read: the exact
document, its schema and its signature. -/
def verifiedDocument (E : Ed25519) (directory : Members E.PublicKey)
    (schemaErrors : Members (Doc F) → List Text) (value : Option Bytes) :
    Except PyError (Members (Doc F)) := do
  let text ← messageText value
  let document ← parseMessage text
  checkSchema schemaErrors document
  let view ← signedView (F := F) text
  let _ ← Envelope.verify E directory view
  return document

/-- **`decode_event`.** -/
def decodeEvent (E : Ed25519) (directory : Members E.PublicKey)
    (schemaErrors : Members (Doc F) → List Text) (now : ℤ) (value : Option Bytes) :
    Except PyError Event := do
  let document ← verifiedDocument E directory schemaErrors value
  normalizeEvent L now (← mapCanonicalEnvelope L document)

end Ingest

end Lakehouse

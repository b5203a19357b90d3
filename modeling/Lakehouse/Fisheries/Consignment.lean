import Lakehouse.Access.Policy
import Lakehouse.Common.Group
import Lakehouse.World
/-!
# Export consignments

The gold view of the fisheries scope: one record for each consignment,
assembled from its catch, custody, coldchain and export events, under a
clearance floor that is the highest label of any of them. The records are
rebuilt from the bronze table and served to a reader by clearance.
-/

namespace Lakehouse

namespace Fisheries

open Ingest

variable {F : Type} [PyFloat F] (L : Library)

/-- A text, or null. -/
abbrev optionalText (t : Option Text) : Cell F := Event.optional t

/-- How an event is named in a message. -/
def eventName (eventId : Text) : Text := lit "fisheries event " ++ L.reprText eventId

/-! ## One event -/

/-- `CONSIGNMENT_ID_PATTERN.fullmatch`. -/
def isConsignmentId (t : Text) : Bool :=
  let alnum := fun c => Uri.isUpper c || Uri.isLower c || isDigit c
  match t with
  | [] => false
  | c :: rest => alnum c && rest.length ≤ 127 &&
      rest.all fun d => alnum d || d == 0x2E || d == 0x5F || d == 0x2D

/-- `_consignment_id`. -/
def consignmentId (payload : Members (Doc F)) (eventId : Text) : Except PyError Text :=
  let refused := PyError.valueError (eventName L eventId ++
    lit " must carry a consignmentId of 1-128 characters " ++
    lit "from [A-Za-z0-9._-], starting with a letter or digit")
  match payload.get (lit "consignmentId") with
  | some (.str t) => if isConsignmentId t then .ok t else .error refused
  | _ => .error refused

/-- `_finite_number`. -/
def finiteNumber (value : Option (Doc F)) (field eventId : Text) : Except PyError F :=
  let refused := PyError.valueError (eventName L eventId ++ lit " field " ++ field ++
    lit " must be a finite number")
  match value with
  | some (.num (.int n)) =>
    if PyFloat.isFinite (PyFloat.ofInt n : F) then .ok (PyFloat.ofInt n) else .error .overflowError
  | some (.num (.float x)) => if PyFloat.isFinite x then .ok x else .error refused
  | _ => .error refused

/-- `_parse_payload`. -/
def parsePayload (event : Row F) (eventId : Text) : Except PyError (Members (Doc F)) :=
  match event.get "payload_json" with
  | .text payloadJson => do
    match ← Json.loads (defaultHooks (F := F)) payloadJson with
    | .obj payload => .ok payload
    | _ => .error (.valueError (eventName L eventId ++ lit " payload must be an object"))
  | _ => .error (.valueError (eventName L eventId ++ lit " is missing payload_json"))

/-- **`_event_clearance_floor`**: an event without a label is `SECRET`. -/
def eventClearanceFloor (event : Row F) (eventId : Text) : Except PyError Clearance :=
  match event.get "record_classification" with
  | .null => .ok .secret
  | .text label =>
    match Clearance.fromLabel L label with
    | .ok c => .ok c
    | .error e => .error (.valueError (eventName L eventId ++
        lit " carries an unknown record_classification: " ++ e.text))
  | _ => .error (.valueError (eventName L eventId ++
      lit " record_classification must be a clearance label"))

/-- What the assembly reads of an event before it is added to its group. -/
structure SourceEvent (F : Type) where
  eventId : Text
  eventType : Text
  occurredAt : ℤ
  payload : Members (Doc F)
  /-- The row itself, for its label. -/
  row : Row F

/-- `isinstance(value, str) and value`. -/
def nonEmptyText : Cell F → Option Text
  | .text t => if t = [] then none else some t
  | _ => none

/-- **An event with its consignment.** -/
def sourceEvent (event : Row F) : Except PyError (Text × SourceEvent F) :=
  match nonEmptyText (event.get "event_id") with
  | none => .error (.valueError (lit "fisheries event is missing a string event_id"))
  | some eventId =>
    match nonEmptyText (event.get "event_type") with
    | none => .error (.valueError (eventName L eventId ++ lit " is missing a string event_type"))
    | some eventType =>
      match event.get "occurred_at" with
      | .instant occurredAt => do
        let payload ← parsePayload L event eventId
        let consignment ← consignmentId L payload eventId
        return (consignment, ⟨eventId, eventType, occurredAt, payload, event⟩)
      | _ => .error (.valueError (eventName L eventId ++
          lit " is missing an occurred_at timestamp"))

/-! ## The groups -/

/-- A coldchain sample. -/
structure Sample (F : Type) where
  eventId : Text
  occurredAt : ℤ
  temperatureCelsius : F

/-- **The events of one consignment**, and the floor of their labels. -/
structure Group (F : Type) where
  catches : List (SourceEvent F)
  custody : List (SourceEvent F)
  coldchain : List (Sample F)
  exports : List (SourceEvent F)
  clearanceFloor : Clearance

def Group.empty : Group F := ⟨[], [], [], [], .unclassified⟩

/-- The temperature of a coldchain event, in the sanity range. -/
def sampleOf (event : SourceEvent F) : Except PyError (Sample F) := do
  let temperature ← finiteNumber L (event.payload.get (lit "temperatureCelsius"))
    (lit "temperatureCelsius") event.eventId
  if within (-80) 60 temperature = false then
    .error (.valueError (eventName L event.eventId ++
      lit " temperatureCelsius is outside the sanity range [-80.0, 60.0]"))
  else .ok ⟨event.eventId, event.occurredAt, temperature⟩

/-- **An event joins its group.** The floor rises with every event, before
its type is looked at. -/
def joinGroup (group : Option (Group F)) (event : SourceEvent F) : Except PyError (Group F) := do
  let group := group.getD .empty
  let floor ← eventClearanceFloor L event.row event.eventId
  let group := { group with clearanceFloor := max group.clearanceFloor floor }
  if (lit "fisheries.catch.").isPrefixOf event.eventType then
    return { group with catches := group.catches ++ [event] }
  else if (lit "fisheries.custody.").isPrefixOf event.eventType then
    return { group with custody := group.custody ++ [event] }
  else if (lit "coldchain.").isPrefixOf event.eventType then
    let sample ← sampleOf L event
    return { group with coldchain := group.coldchain ++ [sample] }
  else if (lit "export.").isPrefixOf event.eventType then
    return { group with exports := group.exports ++ [event] }
  else
    .error (.valueError (eventName L event.eventId ++ lit " has event_type " ++
      L.reprText event.eventType ++
      lit " outside the governed fisheries catch/custody/coldchain/export families"))

/-- The pass over the events. -/
def groupEvents (events : List (Row F)) : Except PyError (Members (Group F)) :=
  groupPass (fun event => some <$> sourceEvent L event) (joinGroup L) [] events

/-! ## The records -/

/-- `json.dumps` of a list of texts. -/
def dumpsTexts (ids : List Text) : Except PyError Text := dumps {} (.arr (ids.map .str) : Doc F)

/-- `_coldchain_digest`. -/
def coldchainDigest (samples : List (Sample F)) : Except PyError Text := do
  let canonical ← dumps { sortKeys := true, compact := true } (.arr (samples.map fun sample =>
    .obj [(lit "event_id", .str sample.eventId),
      (lit "occurred_at", .str (L.isoformat sample.occurredAt)),
      (lit "temperature_celsius", .num (.float sample.temperatureCelsius))]) : Doc F)
  return L.sha256 (← encodeUtf8 canonical)

/-- `min(values)`, or null of none. -/
def minimum (values : List F) : Cell F :=
  match values with
  | [] => .null
  | x :: xs => .float (xs.foldl (fun m y => if PyFloat.lt y m then y else m) x)

/-- `max(values)`, or null of none. -/
def maximum (values : List F) : Cell F :=
  match values with
  | [] => .null
  | x :: xs => .float (xs.foldl (fun m y => if PyFloat.lt m y then y else m) x)

/-- The samples in the order the digest commits to. -/
def sortedSamples (group : Group F) : List (Sample F) :=
  sortBy (fun s => (toLex (s.occurredAt, s.eventId) : ℤ ×ₗ Text)) group.coldchain

/-- The ids of the custody events, sorted. -/
def custodyIds (group : Group F) : List Text :=
  (group.custody.map SourceEvent.eventId).insertionSort (· ≤ ·)

/-- The ids of every event of a group, sorted. -/
def sourceIds (catchEvent : SourceEvent F) (group : Group F) : List Text :=
  ([catchEvent.eventId] ++ custodyIds group ++ (sortedSamples group).map Sample.eventId ++
    group.exports.map SourceEvent.eventId).insertionSort (· ≤ ·)

/-- `group["export"][-1]`: the reference of the last declaration. -/
def exportReference (group : Group F) : Except PyError (Option Text) :=
  match group.exports.getLast? with
  | none => .ok none
  | some event => do
    return some (← requireCanonicalText L
      (fieldOrNone event.payload (lit "exportReference")) (lit "exportReference") 256)

/-- **The record of a group.** -/
def consignmentRecord (assembledAt : ℤ) (consignment : Text) (group : Group F) :
    Except PyError (Row F) :=
  match group.catches with
  | [catchEvent] => do
    let speciesCode ← requireCanonicalText L
      (fieldOrNone catchEvent.payload (lit "speciesCode")) (lit "speciesCode") 64
    let catchWeightKg ← finiteNumber L (catchEvent.payload.get (lit "catchWeightKg"))
      (lit "catchWeightKg") catchEvent.eventId
    if PyFloat.lt catchWeightKg (PyFloat.ofInt 0) then
      .error (.valueError (eventName L catchEvent.eventId ++
        lit " catchWeightKg must not be negative"))
    else do
      let exportReference ← exportReference L group
      let samples := sortedSamples group
      let temperatures := samples.map Sample.temperatureCelsius
      let custodyIdsJson ← dumpsTexts (F := F) (custodyIds group)
      let digest ← coldchainDigest L samples
      let sourceIdsJson ← dumpsTexts (F := F) (sourceIds catchEvent group)
      return [("consignment_id", .text consignment), ("catch_event_id", .text catchEvent.eventId),
        ("catch_occurred_at", .instant catchEvent.occurredAt),
        ("species_code", .text speciesCode), ("catch_weight_kg", .float catchWeightKg),
        ("custody_event_count", .int (custodyIds group).length),
        ("custody_event_ids_json", .text custodyIdsJson),
        ("coldchain_sample_count", .int samples.length),
        ("min_temperature_celsius", minimum temperatures),
        ("max_temperature_celsius", maximum temperatures),
        ("coldchain_digest_sha256", .text digest),
        ("export_reference", optionalText exportReference),
        ("record_classification", .text group.clearanceFloor.label),
        ("source_event_ids_json", .text sourceIdsJson), ("assembled_at", .instant assembledAt)]
  | catches =>
    .error (.valueError (lit "consignment " ++ L.reprText consignment ++
      lit " must have exactly one fisheries.catch.* event, found " ++ Text.ofNat catches.length))

/-- **`build_consignment_records`**, at the instant `assembledAt`. -/
def buildConsignmentRecords (assembledAt : ℤ) (events : List (Row F)) :
    Except PyError (List (Row F)) :=
  if events = [] then
    .error (.valueError (lit "refusing to assemble consignments from an empty event batch"))
  else do
    let groups ← groupEvents L events
    collect ((sortBy Prod.fst groups).map fun g => consignmentRecord L assembledAt g.1 g.2)

/-! ## The gold table -/

/-- The columns of `EXPORT_CONSIGNMENT_SCHEMA`. -/
def exportConsignmentSchema : List String :=
  ["consignment_id", "catch_event_id", "catch_occurred_at", "species_code", "catch_weight_kg",
    "custody_event_count", "custody_event_ids_json", "coldchain_sample_count",
    "min_temperature_celsius", "max_temperature_celsius", "coldchain_digest_sha256",
    "export_reference", "record_classification", "source_event_ids_json", "assembled_at"]

def exportConsignmentTableName : Text := lit "fisheries_gold_export_consignments"

def exportConsignmentTableDescription : Text :=
  lit "Fisheries gold export consignments: per-consignment catch, custody trail " ++
    lit "and coldchain digest assembled from the segregated fisheries bronze track"

variable {L}

/-- `export_consignment_table_uri`. -/
def exportConsignmentTableUri (writer : Segregation.SegregatedDeltaWriter L) :
    Except PyError Text := do
  let goldEventsUri ← writer.tableUri (lit "gold")
  let consignmentUri := (Text.rpartition 0x2F goldEventsUri).1 ++ lit "/export_consignments"
  Segregation.requireScopeTableUri L writer.scope consignmentUri
  return consignmentUri

/-- `DeltaTable(uri)`, after a first look that tells a missing table. -/
def openOrRefuse (uri missing : Text) : Script F (Table F) :=
  ((Script.openTable uri).orElse fun e =>
    if e = .tableNotFound then .raise (.valueError missing) else .raise e) >>= fun _ =>
    Script.openTable uri

/-- The columns the assembly reads: the label where the table has it. -/
def bronzeColumns (bronze : Table F) : List String :=
  ["event_id", "event_type", "occurred_at", "payload_json"] ++
    if "record_classification" ∈ bronze.columns then ["record_classification"] else []

/-- **`assemble_export_consignment_gold`.** -/
def assembleExportConsignmentGold (writer : Segregation.SegregatedDeltaWriter L) :
    Script F (ℕ × ℕ) :=
  if writer.scope ≠ .fisheries then
    .raise (.boundaryViolation
      (lit "export consignment assembly is only defined for the fisheries boundary"))
  else do
    let bronzeUri ← Script.pure (writer.tableUri (lit "bronze"))
    let bronze ← openOrRefuse bronzeUri
      (lit "cannot assemble export consignments before the fisheries bronze table exists")
    let events ← Script.readRows bronze (bronzeColumns bronze) none
    let assembledAt ← Script.now
    let records ← Script.pure (buildConsignmentRecords L assembledAt events)
    let tableUri ← Script.pure (exportConsignmentTableUri writer)
    let source ← Script.pure (ArrowTable.fromPylist records (some exportConsignmentSchema))
    Script.overwriteTable tableUri exportConsignmentTableName exportConsignmentTableDescription
      source
    let table ← Script.openTable tableUri
    return (table.version, records.length)

/-- **`read_export_consignments`.** -/
def readExportConsignments (writer : Segregation.SegregatedDeltaWriter L)
    (clearance : Option Access.ClearanceClaim) : Script F (List (Row F)) :=
  if writer.scope ≠ .fisheries then
    .raise (.boundaryViolation
      (lit "export consignment reads are only defined for the fisheries boundary"))
  else do
    match ← Script.pure (Access.normalizeClearance L clearance) with
    | none => .raise (.accessDenied
        (lit "a clearance claim is required to read export consignments"))
    | some level =>
      let tableUri ← Script.pure (exportConsignmentTableUri writer)
      let table ← openOrRefuse tableUri
        (lit "cannot read export consignments before the gold table is assembled")
      let rows ← Script.readRows table table.columns none
      return Access.filterRecordsByClearance L rows (.level level) "record_classification"

end Fisheries

end Lakehouse

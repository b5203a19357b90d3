import Lakehouse.Ingest.DomainFields
import Lakehouse.Common.Arithmetic
import Lakehouse.Common.Group
import Lakehouse.PortStatistics.Definitions
import Lakehouse.PortStatistics.Period
/-!
# Facts, scans and bookings

What the statistics read of the platform silver events. The lifecycle
events of one port call are merged into one fact; gate scans and bookings
are projected one by one. Each of them counts for one period: a call for
its arrival, a scan for its own instant, a booking for its window.
-/

namespace Lakehouse

namespace PortStatistics

open Ingest

variable {F : Type} [PyFloat F] (L : Library)

/-! ## Events -/

/-- A decoded silver event. -/
structure SilverEvent (F : Type) where
  eventType : Text
  fields : Members (Doc F)
  occurredAt : ℤ
  eventId : Text

/-- **`decode_silver_event`.** -/
def decodeSilverEvent (event : Row F) : Except PyError (SilverEvent F) :=
  match event.get "event_type" with
  | .text eventType =>
    match event.get "payload_json" with
    | .text payloadJson =>
      match event.get "occurred_at" with
      | .instant occurredAt =>
        match event.get "event_id" with
        | .text eventId => do
          return ⟨eventType, ← domainFields payloadJson, occurredAt, eventId⟩
        | _ => .error (.valueError (lit "silver event is missing event_id"))
      | _ => .error (.valueError (lit "silver event is missing occurred_at"))
    | _ => .error (.valueError (lit "silver event is missing payload_json"))
  | _ => .error (.valueError (lit "silver event is missing event_type"))

/-- `_parse_instant`. -/
def parseInstant (value : Doc F) (field eventType : Text) : Except PyError (Option ℤ) :=
  let refused := PyError.valueError (eventType ++ lit " field " ++ field ++
    lit " must be an RFC 3339 timestamp")
  match value with
  | .null => .ok none
  | .str t =>
    if 0x54 ∉ t then .error refused
    else match L.fromIsoformat (replaceZ t) with
      | .invalid => .error refused
      | .naive => .error (.valueError (eventType ++ lit " field " ++ field ++
          lit " must include an offset or Z"))
      | .overflow => .error .overflowError
      | .aware us => .ok (some us)
  | _ => .error refused

/-- `_optional_number`. -/
def optionalNumber (fields : Members (Doc F)) (field eventType : Text) :
    Except PyError (Option F) :=
  match fieldOrNone fields field with
  | .null => .ok none
  | .num (.int n) =>
    if PyFloat.isFinite (PyFloat.ofInt n : F) then .ok (some (PyFloat.ofInt n))
    else .error .overflowError
  | .num (.float x) => .ok (some x)
  | _ => .error (.valueError (eventType ++ lit " field " ++ field ++
      lit " must be a number when present"))

/-- `_optional_text`: the first of some fields that is there. -/
def optionalText (fields : Members (Doc F)) : List Text → Except PyError (Option Text)
  | [] => .ok none
  | name :: names =>
    let refused := PyError.valueError (lit "field " ++ name ++
      lit " must be non-empty text when present")
    match fieldOrNone fields name with
    | .null => optionalText fields names
    | .str t => if t.strip = [] then .error refused else .ok (some t)
    | _ => .error refused

/-! ## Port calls -/

/-- `UNLOCODE_PATTERN.fullmatch(text)`. -/
def isUnlocode (t : Text) : Bool :=
  t.length == 5 && (t.take 2).all Uri.isUpper && (t.drop 2).all fun c => Uri.isUpper c || isDigit c

/-- A lifecycle event of a port call. -/
structure CallEvent (F : Type) where
  portCallId : Text
  portCode : Text
  status : Text
  event : SilverEvent F

/-- What is known of a port call. -/
structure CallEntry (F : Type) where
  portCode : Text
  order : ℤ ×ₗ Text
  status : Text
  vesselRef : Option Text
  shipClass : Option Text
  arrivedAt : Option ℤ
  berthedAt : Option ℤ
  departedAt : Option ℤ
  declaredTonnage : Option F
  sourceEventIds : List Text

/-- A row of `port_call_facts`. -/
structure Fact (F : Type) where
  portCallId : Text
  portCode : Text
  vesselRefHashed : Option Text
  shipClass : Option Text
  status : Text
  arrivedAt : Option ℤ
  berthedAt : Option ℤ
  departedAt : Option ℤ
  declaredTonnage : Option F
  sourceEventIdsJson : Text

/-- The lifecycle event a silver event is, with its port call; none where it
is of another type. -/
def callEvent (event : Row F) : Except PyError (Option (Text × CallEvent F)) := do
  let event ← decodeSilverEvent event
  if event.eventType ≠ portCallEventType then return none
  else match fieldOrNone event.fields (lit "portCallId") with
  | .str portCallId =>
    if portCallId.strip = [] then
      .error (.valueError (portCallEventType ++ lit " field portCallId must be non-empty text"))
    else match fieldOrNone event.fields (lit "portCode") with
    | .str portCode =>
      if isUnlocode portCode = false then
        .error (.valueError (portCallEventType ++
          lit " field portCode must be a UN/LOCODE, got " ++ L.reprText portCode))
      else match fieldOrNone event.fields (lit "status") with
      | .str status =>
        if status ∉ portCallStatuses then
          .error (.valueError (portCallEventType ++ lit " field status " ++ L.reprText status ++
            lit " is outside the governed lifecycle"))
        else return some (portCallId, ⟨portCallId, portCode, status, event⟩)
      | value => .error (.valueError (portCallEventType ++ lit " field status " ++
          reprScalar L value ++ lit " is outside the governed lifecycle"))
    | value => .error (.valueError (portCallEventType ++
        lit " field portCode must be a UN/LOCODE, got " ++ reprScalar L value))
  | _ => .error (.valueError (portCallEventType ++ lit " field portCallId must be non-empty text"))

/-- The order events are merged in. -/
def SilverEvent.order (e : SilverEvent F) : ℤ ×ₗ Text := toLex (e.occurredAt, e.eventId)

/-- The entry `setdefault` makes for a new call. -/
def CallEntry.initial (e : CallEvent F) : CallEntry F where
  portCode := e.portCode
  order := e.event.order
  status := e.status
  vesselRef := none
  shipClass := none
  arrivedAt := none
  berthedAt := none
  departedAt := none
  declaredTonnage := none
  sourceEventIds := []

/-- The entry, once the status of an event at least as late is taken over. -/
def CallEntry.advance (entry : CallEntry F) (e : CallEvent F) : CallEntry F :=
  if entry.order ≤ e.event.order then { entry with order := e.event.order, status := e.status }
  else entry

/-- **An event joins its port call**: every field it has replaces what was
known, whatever the order of the two. -/
def joinCall (entry : Option (CallEntry F)) (e : CallEvent F) : Except PyError (CallEntry F) := do
  let entry := entry.getD (.initial e)
  if entry.portCode ≠ e.portCode then
    .error (.valueError (lit "port call " ++ L.reprText e.portCallId ++
      lit " changed portCode across events"))
  else
    let entry := entry.advance e
    let fields := e.event.fields
    let vesselRef ← optionalText fields [lit "vesselRef"]
    let shipClass ← optionalText fields [lit "shipClass"]
    let arrived ← parseInstant L (fieldOrNone fields (lit "arrivedAt")) (lit "arrivedAt")
      e.event.eventType
    let berthed ← parseInstant L (fieldOrNone fields (lit "berthedAt")) (lit "berthedAt")
      e.event.eventType
    let departed ← parseInstant L (fieldOrNone fields (lit "departedAt")) (lit "departedAt")
      e.event.eventType
    let tonnage ← optionalNumber fields (lit "declaredTonnage") e.event.eventType
    return { entry with
      vesselRef := vesselRef <|> entry.vesselRef
      shipClass := shipClass <|> entry.shipClass
      arrivedAt := arrived <|> entry.arrivedAt
      berthedAt := berthed <|> entry.berthedAt
      departedAt := departed <|> entry.departedAt
      declaredTonnage := tonnage <|> entry.declaredTonnage
      sourceEventIds := entry.sourceEventIds ++ [e.event.eventId] }

/-- The pass over the events. -/
def groupCalls (silverEvents : List (Row F)) : Except PyError (Members (CallEntry F)) :=
  groupPass (callEvent L) (joinCall L) [] silverEvents

/-- The instant a call is attributed to. -/
def CallEntry.attributable (entry : CallEntry F) : ℤ := entry.arrivedAt.getD (ofLex entry.order).1

/-- `_hash_vessel_ref`. -/
def hashVesselRef : Option Text → Except PyError (Option Text)
  | none => .ok none
  | some vesselRef => do
    return some (L.sha256 (← encodeUtf8 (lit "blueeconomy.stats.vessel-ref.v1|" ++ vesselRef)))

/-- The row of a port call. -/
def callFact (portCallId : Text) (entry : CallEntry F) : Except PyError (Fact F) := do
  let vesselRefHashed ← hashVesselRef L entry.vesselRef
  let ids := entry.sourceEventIds.insertionSort (· ≤ ·)
  let sourceEventIdsJson ← dumps {} (.arr (ids.map .str) : Doc F)
  return {
    portCallId, vesselRefHashed, sourceEventIdsJson
    portCode := entry.portCode
    shipClass := entry.shipClass
    status := entry.status
    arrivedAt := entry.arrivedAt
    berthedAt := entry.berthedAt
    departedAt := entry.departedAt
    declaredTonnage := entry.declaredTonnage }

/-- **`assemble_port_call_facts`.** -/
def assemblePortCallFacts (silverEvents : List (Row F)) (periodStart periodEnd : ℤ) :
    Except PyError (List (Fact F)) := do
  let calls ← groupCalls L silverEvents
  let attributed := (sortBy Prod.fst calls).filter fun c =>
    inPeriod c.2.attributable periodStart periodEnd
  collect (attributed.map fun c => callFact L c.1 c.2)

/-! ## Gate scans -/

inductive Direction where
  | gateIn | gateOut
  deriving DecidableEq, Repr

/-- A gate scan. -/
structure GateScan where
  truckRef : Text
  terminal : Text
  portCode : Option Text
  direction : Direction
  occurredAt : ℤ
  eventId : Text
  deriving DecidableEq

/-- `direction not in {"in", "out"}`; a list or a dict is unhashable. -/
def requireDirection (value : Doc F) : Except PyError Direction :=
  let refused := PyError.valueError (gateScanEventType ++ lit " direction must be 'in' or 'out'")
  match value with
  | .str t =>
    if t = lit "in" then .ok .gateIn else if t = lit "out" then .ok .gateOut else .error refused
  | .arr _ | .obj _ => .error .typeError
  | _ => .error refused

/-- The scan of a gate event. -/
def gateScan (event : SilverEvent F) : Except PyError GateScan := do
  match ← optionalText event.fields [lit "truckRef", lit "truck_plate"] with
  | none =>
    .error (.valueError (gateScanEventType ++ lit " must carry a truck reference"))
  | some truckRef =>
    let direction ← requireDirection (fieldOrNone event.fields (lit "direction"))
    let terminal ← optionalText event.fields [lit "terminal", lit "terminalReference"]
    let portCode ← optionalText event.fields [lit "portCode"]
    return ⟨truckRef, terminal.getD [], portCode, direction, event.occurredAt, event.eventId⟩

/-- The scan a silver event adds to a period, if it does. -/
def gateScanIn (periodStart periodEnd : ℤ) (event : Row F) : Except PyError (Option GateScan) := do
  let event ← decodeSilverEvent event
  if event.eventType ≠ gateScanEventType ∨ inPeriod event.occurredAt periodStart periodEnd = false then
    return none
  else return some (← gateScan event)

/-- **`extract_gate_scans`.** -/
def extractGateScans (silverEvents : List (Row F)) (periodStart periodEnd : ℤ) :
    Except PyError (List GateScan) := do
  return (← collect (silverEvents.map (gateScanIn periodStart periodEnd))).reduceOption

/-! ## Bookings -/

/-- A booking. -/
structure Booking (F : Type) where
  bookingId : Text
  portCode : Option Text
  leadTimeHours : F
  bookedSlots : Option F
  offeredSlots : Option F
  eventId : Text

variable [PyMath F]

/-- `timedelta(microseconds=us).total_seconds() / 3600.0`. -/
def hours {F : Type} [Arithmetic F] (us : ℤ) : F :=
  Arithmetic.div (Arithmetic.totalSeconds us) (Arithmetic.ofInt 3600)

/-- The booking of an event, whose window starts at an instant. -/
def bookingOf (event : SilverEvent F) (createdAt windowStart : ℤ) : Except PyError (Booking F) :=
  if windowStart < createdAt then
    .error (.valueError (bookingEventType ++ lit " slot window starts before creation"))
  else do
    let bookingId ← optionalText event.fields [lit "bookingId"]
    let portCode ← optionalText event.fields [lit "portCode"]
    let bookedSlots ← optionalNumber event.fields (lit "bookedSlots") event.eventType
    let offeredSlots ← optionalNumber event.fields (lit "offeredSlots") event.eventType
    return ⟨bookingId.getD event.eventId, portCode, hours (windowStart - createdAt), bookedSlots,
      offeredSlots, event.eventId⟩

/-- The booking a silver event adds to a period, if it does. -/
def bookingIn (periodStart periodEnd : ℤ) (event : Row F) :
    Except PyError (Option (Booking F)) := do
  let event ← decodeSilverEvent event
  if event.eventType ≠ bookingEventType then return none
  else
    let createdAt ← parseInstant L (fieldOrNone event.fields (lit "createdAt")) (lit "createdAt")
      event.eventType
    match ← parseInstant L (fieldOrNone event.fields (lit "slotWindowStart"))
      (lit "slotWindowStart") event.eventType with
    | none => return none
    | some windowStart =>
      if inPeriod windowStart periodStart periodEnd = false then return none
      else return some (← bookingOf event (createdAt.getD event.occurredAt) windowStart)

/-- **`extract_bookings`.** -/
def extractBookings (silverEvents : List (Row F)) (periodStart periodEnd : ℤ) :
    Except PyError (List (Booking F)) := do
  return (← collect (silverEvents.map (bookingIn L periodStart periodEnd))).reduceOption

end PortStatistics

end Lakehouse

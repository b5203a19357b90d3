import Lakehouse.Common.Sort
import Lakehouse.Ingest.DomainFields
/-!
# Excise stamp facts

The gold projection of the stamps events of the platform scope, one row for
each event, in the order they occurred. An amount that is not an integral
number of minor units fails the run.
-/

namespace Lakehouse

namespace Excise

open Ingest

variable {F : Type} [PyFloat F] (L : Library)

def assessedEventType : Text := lit "stamps.assessed.v1"
def approvedEventType : Text := lit "stamps.approved.v1"
def issuedEventType : Text := lit "stamps.issued.v1"
def activatedEventType : Text := lit "stamps.activated.v1"

/-- `STAMP_EVENT_TYPES`. -/
def stampEventTypes : List Text :=
  [assessedEventType, approvedEventType, issuedEventType, activatedEventType]

/-! ## Fields -/

/-- `_require_int`. -/
def requireInt (fields : Members (Doc F)) (name : Text) (minimum : ℤ) : Except PyError ℤ :=
  let refused := PyError.valueError (lit "stamps event " ++ name ++
    lit " must be an integer >= " ++ Text.ofInt minimum)
  match fieldOrNone fields name with
  | .num (.int n) => if n < minimum then .error refused else .ok n
  | _ => .error refused

mutual

/-- `repr(value)` of a parsed document. -/
def reprDoc : Doc F → Text
  | .null => lit "None"
  | .bool b => if b then lit "True" else lit "False"
  | .num (.int n) => Text.ofInt n
  | .num (.float x) => PyFloat.repr x
  | .str t => L.reprText t
  | .arr vs => 0x5B :: Text.join (lit ", ") (reprItems vs) ++ [0x5D]
  | .obj ms => 0x7B :: Text.join (lit ", ") (reprMembers ms) ++ [0x7D]

def reprItems : List (Doc F) → List Text
  | [] => []
  | v :: vs => reprDoc v :: reprItems vs

def reprMembers : List (Text × Doc F) → List Text
  | [] => []
  | (k, v) :: ms => (L.reprText k ++ lit ": " ++ reprDoc v) :: reprMembers ms

end

/-- `bool(value)`. -/
def isTruthy : Doc F → Bool
  | .null => false
  | .bool b => b
  | .num (.int n) => n ≠ 0
  | .num (.float x) => !PyFloat.eq x (PyFloat.ofInt 0)
  | .str t => t ≠ []
  | .arr vs => !vs.isEmpty
  | .obj ms => !ms.isEmpty

/-- `str(fields.get(name) or "")`. -/
def textOrEmpty (fields : Members (Doc F)) (name : Text) : Text :=
  match fieldOrNone fields name with
  | .str t => t
  | v => if isTruthy v then reprDoc L v else []

/-! ## The rows -/

/-- The duty and the quantity of an event. -/
def stampCounts (eventType : Text) (fields : Members (Doc F)) :
    Except PyError (Option ℤ × Option ℤ) :=
  if eventType = assessedEventType then do
    let totalDutyKobo ← requireInt fields (lit "totalDutyKobo") 0
    let quantity ← requireInt fields (lit "stampsRequired") 0
    return (some totalDutyKobo, some quantity)
  else if eventType = issuedEventType then do
    let quantity ← requireInt fields (lit "quantity") 1
    return (none, some quantity)
  else if eventType = activatedEventType then do
    let quantity ← requireInt fields (lit "activatedCount") 0
    return (none, some quantity)
  else .ok (none, none)

/-- An integer, or null. -/
def optionalInt (n : Option ℤ) : Cell F := (n.map Cell.int).getD .null

/-- **The row of a stamps event.** -/
def stampFactRow (curatedAt : ℤ) (event : Row F) : Except PyError (Row F) :=
  match event.get "payload_json" with
  | .text payloadJson =>
    match event.get "occurred_at" with
    | .instant occurredAt =>
      match event.get "event_id", event.get "event_type" with
      | .text eventId, .text eventType => do
        let fields : Members (Doc F) ← domainFields payloadJson
        let (totalDutyKobo, quantity) ← stampCounts eventType fields
        return [("event_id", .text eventId), ("event_type", .text eventType),
          ("occurred_at", .instant occurredAt),
          ("assessment_id", .text (textOrEmpty L fields (lit "assessmentId"))),
          ("declaration_ref", .text (textOrEmpty L fields (lit "declarationRef"))),
          ("batch_id", .text (textOrEmpty L fields (lit "batchId"))),
          ("total_duty_kobo", optionalInt totalDutyKobo), ("quantity", optionalInt quantity),
          ("payload_json", .text payloadJson), ("curated_at", .instant curatedAt)]
      | _, _ => .error (.valueError (lit "silver stamps event is missing event_id"))
    | _ => .error (.valueError (lit "silver stamps event is missing occurred_at"))
  | _ => .error (.valueError (lit "silver stamps event is missing payload_json"))

/-- `event.get("event_type") in STAMP_EVENT_TYPES`. -/
def isStampEvent (event : Row F) : Bool :=
  match event.get "event_type" with
  | .text t => t ∈ stampEventTypes
  | _ => false

/-- The order of the events: one without a time comes first, and fails the
run when it is written down. -/
def eventOrder (event : Row F) : ℤ ×ₗ Text :=
  toLex (match event.get "occurred_at" with
    | .instant occurredAt => occurredAt
    | _ => IsoTime.bounds.1,
  match event.get "event_id" with
    | .text eventId => eventId
    | _ => lit "None")

/-- **`build_excise_stamp_fact_rows`.** -/
def buildExciseStampFactRows (silverEvents : List (Row F)) (curatedAt : ℤ) :
    Except PyError (List (Row F)) :=
  collect ((sortBy eventOrder (silverEvents.filter isStampEvent)).map (stampFactRow L curatedAt))

end Excise

end Lakehouse

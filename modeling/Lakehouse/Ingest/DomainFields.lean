import Lakehouse.Ingest.Decode
/-!
# The domain record of a payload

A retained payload carries its domain record on the resource itself, or as
a JSON document in an extension; the document wins where both have a field.
-/

namespace Lakehouse

namespace Ingest

variable {F : Type} [PyFloat F]

def domainPayloadExtensionUrl : Text :=
  lit "https://blueeconomy.gov.ng/fhir/StructureDefinition/domain-payload"

/-- `_CARRIAGE_FIELDS`. -/
def carriageFields : List Text :=
  [lit "resourceType", lit "id", lit "code", lit "extension", lit "provenance", lit "meta",
    lit "text"]

/-- Whether an extension entry is the domain payload. -/
def isDomainPayload (entry : Members (Doc F)) : Bool :=
  match fieldOrNone entry (lit "url") with
  | .str url => url = domainPayloadExtensionUrl
  | _ => false

/-- The document an extension entry carries. -/
def extensionDocument (entry : Members (Doc F)) : Except PyError (Members (Doc F)) :=
  match fieldOrNone entry (lit "valueString") with
  | .str documentText =>
    if documentText.strip = [] then
      .error (.valueError (lit "domain-payload extension must carry a non-empty JSON document"))
    else match Json.loads (defaultHooks (F := F)) documentText with
    | .error (.jsonDecodeError _) =>
      .error (.valueError (lit "domain-payload extension is not valid JSON"))
    | .error e => .error e
    | .ok (.obj document) => .ok document
    | .ok _ =>
      .error (.valueError (lit "domain-payload extension document must be a JSON object"))
  | _ =>
    .error (.valueError (lit "domain-payload extension must carry a non-empty JSON document"))

/-- The fields updated with the documents of the entries. -/
def mergeDocuments (fields : Members (Doc F)) : List (Doc F) → Except PyError (Members (Doc F))
  | [] => .ok fields
  | .obj entry :: entries =>
    if isDomainPayload entry then do
      mergeDocuments (fields.update (← extensionDocument entry)) entries
    else mergeDocuments fields entries
  | _ :: _ => .error (.valueError (lit "payload extension entries must be JSON objects"))

/-- **`extract_domain_fields`.** -/
def extractDomainFields (payload : Doc F) : Except PyError (Members (Doc F)) :=
  match payload with
  | .obj payload =>
    let fields := payload.filter fun m => m.1 ∉ carriageFields
    match fieldOrNone payload (lit "extension") with
    | .null => .ok fields
    | .arr extension => mergeDocuments fields extension
    | _ => .error (.valueError (lit "payload extension must be a JSON array"))
  | _ => .error (.valueError (lit "event payload must be a JSON object"))

/-- `extract_domain_fields(json.loads(payload_json))`. -/
def domainFields (payloadJson : Text) : Except PyError (Members (Doc F)) := do
  extractDomainFields (← Json.loads defaultHooks payloadJson)

omit [PyFloat F]

/-- `event.get("event_type") == event_type`. -/
def isOfType (eventType : Text) (event : Row F) : Bool :=
  match event.get "event_type" with
  | .text t => t = eventType
  | _ => false

variable {eventType other : Text} {event : Row F}

theorem isOfType_eq_true : isOfType eventType event = true ↔ event.get "event_type" = .text eventType := by
  unfold isOfType
  split <;> simp_all

/-- An event is of one type. -/
theorem isOfType_of_ne (hne : eventType ≠ other) (h : isOfType eventType event = true) :
    isOfType other event = false := by
  refine Bool.eq_false_iff.2 fun hother => hne ?_
  exact Cell.text.inj ((isOfType_eq_true.1 h).symm.trans (isOfType_eq_true.1 hother))

end Ingest

end Lakehouse

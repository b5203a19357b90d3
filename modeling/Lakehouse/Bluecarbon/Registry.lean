import Lakehouse.Ingest.DomainFields
import Lakehouse.Common.Group
/-!
# The public registry

The public projection of the blue-carbon scope: one row for each project,
from the latest event of every project and credit block and from every
retirement. Of a project only `publicProjectFields` are copied.
-/

namespace Lakehouse

namespace Bluecarbon

open Ingest

variable {F : Type} [PyFloat F] (L : Library)

def projectEventType : Text := lit "bluecarbon.project.v1"
def creditBlockEventType : Text := lit "bluecarbon.credit-block.v1"
def retirementEventType : Text := lit "bluecarbon.retirement.v1"

/-- `PUBLIC_PROJECT_FIELDS`. -/
def publicProjectFields : List Text :=
  [lit "projectId", lit "projectName", lit "state", lit "ecosystem", lit "methodology",
    lit "countryCode", lit "strataCentroids", lit "externalRegistry", lit "externalProjectId"]

/-- `CREDIT_BLOCK_STATUSES`, sorted. -/
def creditBlockStatuses : List Text := [lit "ACTIVE", lit "CANCELLED", lit "RETIRED"]

/-! ## Fields -/

/-- `_require_text`. -/
def requireText (fields : Members (Doc F)) (name eventType : Text) : Except PyError Text :=
  let refused := PyError.valueError (eventType ++ lit " field " ++ name ++
    lit " must be non-empty text")
  match fieldOrNone fields name with
  | .str t => if t.strip = [] then .error refused else .ok t
  | _ => .error refused

/-- `_optional_text`. -/
def optionalText (fields : Members (Doc F)) (name eventType : Text) :
    Except PyError (Option Text) :=
  let refused := PyError.valueError (eventType ++ lit " field " ++ name ++
    lit " must be non-empty text when present")
  match fieldOrNone fields name with
  | .null => .ok none
  | .str t => if t.strip = [] then .error refused else .ok (some t)
  | _ => .error refused

/-- `_require_quantity`. -/
def requireQuantity (fields : Members (Doc F)) (name eventType : Text) : Except PyError F :=
  let refused := PyError.valueError (eventType ++ lit " field " ++ name ++
    lit " must be a non-negative number")
  match fieldOrNone fields name with
  | .num (.int n) =>
    if n < 0 then .error refused
    else if PyFloat.isFinite (PyFloat.ofInt n : F) then .ok (PyFloat.ofInt n)
    else .error .overflowError
  | .num (.float x) => if PyFloat.lt x (PyFloat.ofInt 0) then .error refused else .ok x
  | _ => .error refused

/-! ## Latest events -/

/-- The latest event of a key. -/
structure Latest (F : Type) where
  fields : Members (Doc F)
  eventId : Text
  occurredAt : ℤ

/-- What an event of a type may become the latest of. -/
def latestCandidate (eventType keyField : Text) (event : Row F) :
    Except PyError (Option (Text × Latest F)) :=
  if isOfType eventType event = false then .ok none
  else match event.get "payload_json", event.get "occurred_at", event.get "event_id" with
  | .text payloadJson, .instant occurredAt, .text eventId => do
    let fields ← domainFields payloadJson
    let key ← requireText fields keyField eventType
    return some (key, ⟨fields, eventId, occurredAt⟩)
  | .text _, .instant _, _ =>
    .error (.valueError (lit "silver " ++ eventType ++ lit " event is missing event_id"))
  | .text _, _, _ =>
    .error (.valueError (lit "silver " ++ eventType ++ lit " event is missing occurred_at"))
  | _, _, _ =>
    .error (.valueError (lit "silver " ++ eventType ++ lit " event is missing payload_json"))

/-- The order of events. -/
def Latest.order (event : Latest F) : ℤ ×ₗ Text := toLex (event.occurredAt, event.eventId)

/-- The later of an event and the one kept. -/
def keepLatest (existing : Option (Latest F)) (event : Latest F) : Except PyError (Latest F) :=
  match existing with
  | none => .ok event
  | some existing => .ok (if existing.order < event.order then event else existing)

/-- **`_latest_events_by_key`.** -/
def latestEventsByKey (silverEvents : List (Row F)) (eventType keyField : Text) :
    Except PyError (Members (Latest F)) :=
  groupPass (latestCandidate eventType keyField) keepLatest [] silverEvents

/-! ## Retirements -/

structure Retirement (F : Type) where
  retirementId : Text
  serial : Option Text
  beneficiary : Text
  purpose : Text
  quantityKgCo2e : F
  artifactSha256 : Text
  retiredAt : Option Text

/-- The retirements of a project, and the events they come from. -/
structure Retirements (F : Type) where
  items : List (Retirement F)
  sources : List Text

/-- A retirement event, under its project. -/
def retirementEntry (event : Row F) :
    Except PyError (Option (Text × Retirement F × Option Text)) :=
  if isOfType retirementEventType event = false then .ok none
  else match event.get "payload_json" with
  | .text payloadJson => do
    let fields ← domainFields payloadJson
    let projectId ← requireText fields (lit "projectId") retirementEventType
    let retirementId ← requireText fields (lit "retirementId") retirementEventType
    let serial ← optionalText fields (lit "serial") retirementEventType
    let beneficiary ← requireText fields (lit "beneficiary") retirementEventType
    let purpose ← requireText fields (lit "purpose") retirementEventType
    let quantityKgCo2e ← requireQuantity fields (lit "quantityKgCo2e") retirementEventType
    let artifactSha256 ← requireText fields (lit "artifactSha256") retirementEventType
    let retiredAt ← optionalText fields (lit "retiredAt") retirementEventType
    let eventId := match event.get "event_id" with
      | .text eventId => some eventId
      | _ => none
    return some (projectId, ⟨retirementId, serial, beneficiary, purpose, quantityKgCo2e,
      artifactSha256, retiredAt⟩, eventId)
  | _ => .error (.valueError (lit "silver retirement event is missing payload_json"))

def addRetirement (existing : Option (Retirements F)) (r : Retirement F × Option Text) :
    Except PyError (Retirements F) :=
  let existing := existing.getD ⟨[], []⟩
  .ok ⟨existing.items ++ [r.1], existing.sources ++ r.2.toList⟩

/-- The retirements by project. -/
def retirementsByProject (silverEvents : List (Row F)) : Except PyError (Members (Retirements F)) :=
  groupPass retirementEntry addRetirement [] silverEvents

/-! ## Credit blocks -/

/-- The movement totals of a vintage. -/
structure Totals (F : Type) where
  issued : F
  retired : F
  cancelled : F

/-- What the credit blocks of a project add up to. -/
structure BlockTotals (F : Type) where
  vintages : Members (Totals F)
  bufferBalance : F
  sources : List Text

/-- A credit block. -/
structure CreditBlock (F : Type) where
  vintage : Text
  status : Text
  quantity : F
  isBuffer : Bool
  eventId : Text

/-- A block, under its project. -/
def creditBlockEntry (block : Text × Latest F) : Except PyError (Option (Text × CreditBlock F)) := do
  let fields := block.2.fields
  let projectId ← requireText fields (lit "projectId") creditBlockEventType
  let vintage ← requireText fields (lit "vintage") creditBlockEventType
  let status ← requireText fields (lit "status") creditBlockEventType
  if status ∉ creditBlockStatuses then
    .error (.valueError (creditBlockEventType ++ lit " block " ++ L.reprText block.1 ++
      lit " status " ++ L.reprText status ++ lit " is not one of [" ++
      Text.join (lit ", ") (creditBlockStatuses.map L.reprText) ++ lit "]"))
  else do
    let quantity ← requireQuantity fields (lit "quantityKgCo2e") creditBlockEventType
    let isBuffer := match fieldOrNone fields (lit "bufferPool") with
      | .bool b => b
      | _ => false
    return some (projectId, ⟨vintage, status, quantity, isBuffer, block.2.eventId⟩)

/-- The float zero. -/
def zero : F := PyFloat.ofInt 0

def addCreditBlock (existing : Option (BlockTotals F)) (block : CreditBlock F) :
    Except PyError (BlockTotals F) :=
  let existing := existing.getD ⟨[], zero, []⟩
  let totals := (existing.vintages.get block.vintage).getD ⟨zero, zero, zero⟩
  let totals := { totals with issued := PyFloat.add totals.issued block.quantity }
  let totals :=
    if block.status = lit "RETIRED" then
      { totals with retired := PyFloat.add totals.retired block.quantity }
    else if block.status = lit "CANCELLED" then
      { totals with cancelled := PyFloat.add totals.cancelled block.quantity }
    else totals
  let bufferBalance :=
    if block.isBuffer then PyFloat.add existing.bufferBalance
      (if block.status = lit "ACTIVE" then block.quantity else zero)
    else existing.bufferBalance
  .ok ⟨existing.vintages.set block.vintage totals, bufferBalance,
    existing.sources ++ [block.eventId]⟩

/-- The totals by project, over the blocks in order. -/
def blockTotals (blocks : Members (Latest F)) : Except PyError (Members (BlockTotals F)) :=
  groupPass (creditBlockEntry L) addCreditBlock [] (sortBy Prod.fst blocks)

/-! ## The rows -/

/-- A text, or JSON null. -/
def docOfText (t : Option Text) : Doc F := (t.map Json.str).getD .null

def Totals.doc (vintage : Text) (totals : Totals F) : Doc F :=
  .obj [(lit "vintage", .str vintage), (lit "issued_kg_co2e", .num (.float totals.issued)),
    (lit "retired_kg_co2e", .num (.float totals.retired)),
    (lit "cancelled_kg_co2e", .num (.float totals.cancelled))]

def Retirement.doc (r : Retirement F) : Doc F :=
  .obj [(lit "retirement_id", .str r.retirementId), (lit "serial", docOfText r.serial),
    (lit "beneficiary", .str r.beneficiary), (lit "purpose", .str r.purpose),
    (lit "quantity_kg_co2e", .num (.float r.quantityKgCo2e)),
    (lit "artifact_sha256", .str r.artifactSha256), (lit "retired_at", docOfText r.retiredAt)]

/-- **The fields copied** out of a project's record. -/
def publicFields (sourceFields : Members (Doc F)) : Members (Doc F) :=
  publicProjectFields.map fun name => (name, fieldOrNone sourceFields name)

/-- `json.dumps(centroids)`, or null. -/
def strataCentroidsJson (fields : Members (Doc F)) : Except PyError (Option Text) :=
  match fieldOrNone fields (lit "strataCentroids") with
  | .null => .ok none
  | centroids => do return some (← dumps { sortKeys := true, compact := true } centroids)

/-- Whether the centroids are a list, where there are any. -/
def checkCentroids (fields : Members (Doc F)) : Except PyError Unit :=
  match fieldOrNone fields (lit "strataCentroids") with
  | .null | .arr _ => .ok ()
  | _ => .error (.valueError (projectEventType ++
      lit " strataCentroids must be a list when present"))

/-- **The row of a project.** -/
def registryRow (curatedAt : ℤ) (totals : Members (BlockTotals F))
    (retirements : Members (Retirements F)) (project : Text × Latest F) :
    Except PyError (Row F) := do
  let projectId := project.1
  let fields := publicFields project.2.fields
  checkCentroids fields
  let blocks := (totals.get projectId).getD ⟨[], zero, []⟩
  let retired := (retirements.get projectId).getD ⟨[], []⟩
  let vintageRows := (sortBy Prod.fst blocks.vintages).map fun v => v.2.doc v.1
  let retirementRows := (sortBy Retirement.retirementId retired.items).map Retirement.doc
  let sourceIds := project.2.eventId :: blocks.sources ++ retired.sources
  let text := fun name => optionalText fields name projectEventType
  let projectName ← text (lit "projectName")
  let state ← requireText fields (lit "state") projectEventType
  let ecosystem ← text (lit "ecosystem")
  let methodology ← text (lit "methodology")
  let countryCode ← text (lit "countryCode")
  let strataCentroidsJson ← strataCentroidsJson fields
  let externalRegistry ← text (lit "externalRegistry")
  let externalProjectId ← text (lit "externalProjectId")
  let vintageTotalsJson ← dumps { compact := true } (.arr vintageRows)
  let retirementsJson ← dumps { compact := true } (.arr retirementRows)
  let sourceEventIdsJson ← dumps {} (.arr ((sourceIds.insertionSort (· ≤ ·)).map .str) : Doc F)
  return [("project_id", .text projectId), ("project_name", Event.optional projectName),
    ("state", .text state), ("ecosystem", Event.optional ecosystem),
    ("methodology", Event.optional methodology), ("country_code", Event.optional countryCode),
    ("strata_centroids_json", Event.optional strataCentroidsJson),
    ("external_registry", Event.optional externalRegistry),
    ("external_project_id", Event.optional externalProjectId),
    ("vintage_totals_json", .text vintageTotalsJson),
    ("buffer_balance_kg_co2e", .float blocks.bufferBalance),
    ("retirements_json", .text retirementsJson),
    ("source_event_ids_json", .text sourceEventIdsJson), ("curated_at", .instant curatedAt)]

/-- **`build_public_registry_rows`.** -/
def buildPublicRegistryRows (silverEvents : List (Row F)) (curatedAt : ℤ) :
    Except PyError (List (Row F)) := do
  let projects ← latestEventsByKey silverEvents projectEventType (lit "projectId")
  let blocks ← latestEventsByKey silverEvents creditBlockEventType (lit "blockId")
  let retirements ← retirementsByProject silverEvents
  let totals ← blockTotals L blocks
  collect ((sortBy Prod.fst projects).map (registryRow curatedAt totals retirements))

end Bluecarbon

end Lakehouse

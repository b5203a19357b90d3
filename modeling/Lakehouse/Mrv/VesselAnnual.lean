import Lakehouse.Ingest.DomainFields
import Lakehouse.Common.Sort
/-!
# The annual gold row of a vessel

One row for each vessel and year, from the latest verified annual report,
with the hash of the Statement of Compliance issued for that report.
Statements are taken from a dict as the reports are written down; one left
over fails the run.
-/

namespace Lakehouse

namespace Mrv

open Ingest

variable {F : Type} [PyFloat F] (L : Library)

def annualReportEventType : Text := lit "mrv.emissions-annual.v1"
def socEventType : Text := lit "mrv.soc.v1"
def verifiedState : Text := lit "VERIFIED"

/-- `CII_RATINGS`. -/
def ciiRatings : List Text := [lit "A", lit "B", lit "C", lit "D", lit "E"]

/-- `IMO_NUMBER_PATTERN.fullmatch(text)`. -/
def isImoNumber (t : Text) : Bool := t.length == 7 && t.all isDigit

/-- `SHA256_PATTERN.fullmatch(text)`. -/
def isSha256 (t : Text) : Bool :=
  t.length == 64 && t.all fun c => isDigit c || (0x61 ≤ c && c ≤ 0x66)

/-! ## Fields -/

/-- `_require_text`. -/
def requireText (fields : Members (Doc F)) (name : Text) : Except PyError Text :=
  let refused := PyError.valueError (lit "mrv annual report field " ++ name ++
    lit " must be non-empty text")
  match fieldOrNone fields name with
  | .str t => if t.strip = [] then .error refused else .ok t
  | _ => .error refused

/-- `_optional_float`. -/
def optionalFloat (fields : Members (Doc F)) (name : Text) : Except PyError (Cell F) :=
  match fieldOrNone fields name with
  | .null => .ok .null
  | .num (.int n) =>
    if PyFloat.isFinite (PyFloat.ofInt n : F) then .ok (.float (PyFloat.ofInt n))
    else .error .overflowError
  | .num (.float x) => .ok (.float x)
  | _ => .error (.valueError (lit "mrv annual report field " ++ name ++
      lit " must be a number when present"))

/-- The calendar year of a report. -/
def calendarYear (fields : Members (Doc F)) : Except PyError ℤ :=
  let refused := PyError.valueError
    (lit "mrv annual report calendarYear must be a four-digit year integer")
  match fieldOrNone fields (lit "calendarYear") with
  | .num (.int year) => if 2000 ≤ year ∧ year ≤ 9999 then .ok year else .error refused
  | _ => .error refused

/-- The IMO number of a report. -/
def imoNumber (fields : Members (Doc F)) : Except PyError Text := do
  let imo ← requireText fields (lit "imoNumber")
  if isImoNumber imo then .ok imo
  else .error (.valueError (lit "mrv annual report imoNumber " ++ L.reprText imo ++
    lit " is not 7 digits"))

/-! ## The events -/

/-- A verified report. -/
structure Report (F : Type) where
  imoNumber : Text
  calendarYear : ℤ
  reportId : Text
  fields : Members (Doc F)
  occurredAt : ℤ
  eventId : Text

/-- The vessel and the year of a report. -/
def Report.key (r : Report F) : Text × ℤ := (r.imoNumber, r.calendarYear)

/-- A Statement of Compliance. -/
structure Soc where
  artifact : Text
  eventId : Text
  occurredAt : ℤ

/-- The order of reports, and that of statements. -/
def Report.order (r : Report F) : ℤ ×ₗ Text := toLex (r.occurredAt, r.eventId)
def Soc.order (s : Soc) : ℤ ×ₗ Text := toLex (s.occurredAt, s.eventId)

/-- What the pass over the events keeps. -/
structure Kept (F : Type) where
  verified : List (Report F)
  socByReport : Members Soc

/-- What is read of every event of the two types. -/
structure Record (F : Type) where
  fields : Members (Doc F)
  occurredAt : ℤ
  eventId : Text

def eventRecord (event : Row F) : Except PyError (Record F) :=
  match event.get "payload_json" with
  | .text payloadJson => do
    let fields ← domainFields payloadJson
    match event.get "occurred_at", event.get "event_id" with
    | .instant occurredAt, .text eventId => .ok ⟨fields, occurredAt, eventId⟩
    | .instant _, _ => .error (.valueError (lit "silver mrv event is missing event_id"))
    | _, _ => .error (.valueError (lit "silver mrv event is missing occurred_at"))
  | _ => .error (.valueError (lit "silver mrv event is missing payload_json"))

/-- The statement of a record, with the report it is for. -/
def readSoc (record : Record F) : Except PyError (Text × Soc) := do
  let reportId ← requireText record.fields (lit "reportId")
  let artifact ← requireText record.fields (lit "artifactSha256")
  if isSha256 artifact then .ok (reportId, ⟨artifact, record.eventId, record.occurredAt⟩)
  else .error (.valueError
    (lit "mrv.soc.v1 artifactSha256 must be 64 lowercase hex characters"))

/-- The later of a statement and the one kept. -/
def keepSoc (existing : Option Soc) (soc : Soc) : Soc :=
  match existing with
  | none => soc
  | some existing => if existing.order < soc.order then soc else existing

def addSoc (kept : Kept F) (record : Record F) : Except PyError (Kept F) := do
  let (reportId, soc) ← readSoc record
  return { kept with
    socByReport := kept.socByReport.set reportId (keepSoc (kept.socByReport.get reportId) soc) }

/-- `verified[key] = report`. -/
def setReport (verified : List (Report F)) (report : Report F) : List (Report F) :=
  if report.key ∈ verified.map Report.key then
    verified.map fun r => if r.key = report.key then report else r
  else verified ++ [report]

/-- A verified report takes the place of an earlier one. Only then is its id
read. -/
def addVerified (kept : Kept F) (record : Record F) : Except PyError (Kept F) := do
  let imo ← imoNumber L record.fields
  let year ← calendarYear record.fields
  let later := match kept.verified.find? fun r => r.key = (imo, year) with
    | none => true
    | some existing => existing.order < toLex (record.occurredAt, record.eventId)
  if later then do
    let reportId ← requireText record.fields (lit "reportId")
    let report := ⟨imo, year, reportId, record.fields, record.occurredAt, record.eventId⟩
    return { kept with verified := setReport kept.verified report }
  else .ok kept

/-- `fields.get("state") != VERIFIED_STATE`, negated. -/
def isVerified (fields : Members (Doc F)) : Bool :=
  match fieldOrNone fields (lit "state") with
  | .str state => state = verifiedState
  | _ => false

/-- One event of the pass. -/
def addEvent (kept : Kept F) (event : Row F) : Except PyError (Kept F) :=
  if isOfType socEventType event then do
    let record ← eventRecord event
    addSoc kept record
  else if isOfType annualReportEventType event then do
    let record ← eventRecord event
    if isVerified record.fields then addVerified L kept record else .ok kept
  else .ok kept

/-- The pass over the events. -/
def collectEvents : List (Row F) → Kept F → Except PyError (Kept F)
  | [], kept => .ok kept
  | event :: events, kept => do collectEvents events (← addEvent L kept event)

/-! ## The rows -/

/-- The rating of a report. -/
def ciiRating (fields : Members (Doc F)) : Except PyError (Option Text) :=
  match fieldOrNone fields (lit "ciiRating") with
  | .null => .ok none
  | .str rating =>
    if rating ∈ ciiRatings then .ok (some rating)
    else .error (.valueError (lit "mrv annual report ciiRating " ++ L.reprText rating ++
      lit " is not A-E"))
  | v => .error (.valueError (lit "mrv annual report ciiRating " ++ reprScalar L v ++
      lit " is not A-E"))

/-- The totals of a report. -/
def reportTotals (fields : Members (Doc F)) : Except PyError (Members (Doc F)) :=
  match fieldOrNone fields (lit "totals") with
  | .obj totals => .ok totals
  | _ => .error (.valueError (lit "verified mrv annual report must carry a totals object"))

/-- The columns a report fills itself. -/
structure ReportColumns (F : Type) where
  fuelTotalsJson : Text
  co2Tonnes : Cell F
  attainedCii : Cell F
  requiredCii : Cell F
  ciiRating : Option Text

def reportColumns (fields : Members (Doc F)) : Except PyError (ReportColumns F) := do
  let rating ← ciiRating L fields
  let totals ← reportTotals fields
  let fuelTotalsJson ← dumps { sortKeys := true, compact := true } (.obj totals)
  let co2Tonnes ← optionalFloat totals (lit "co2Tonnes")
  let attainedCii ← optionalFloat fields (lit "attainedCii")
  let requiredCii ← optionalFloat fields (lit "requiredCii")
  return ⟨fuelTotalsJson, co2Tonnes, attainedCii, requiredCii, rating⟩

/-- The row of a report and of the statement found for it. -/
def vesselRow (curatedAt : ℤ) (report : Report F) (soc : Option Soc) : Except PyError (Row F) := do
  let columns ← reportColumns L report.fields
  let sources := report.eventId :: (soc.map Soc.eventId).toList
  let sourceEventIdsJson ← dumps {} (.arr ((sources.insertionSort (· ≤ ·)).map .str) : Doc F)
  return [("imo_number", .text report.imoNumber), ("calendar_year", .int report.calendarYear),
    ("report_id", .text report.reportId), ("fuel_totals_json", .text columns.fuelTotalsJson),
    ("co2_tonnes", columns.co2Tonnes), ("attained_cii", columns.attainedCii),
    ("required_cii", columns.requiredCii), ("cii_rating", Event.optional columns.ciiRating),
    ("soc_artifact_sha256", Event.optional (soc.map Soc.artifact)),
    ("source_event_ids_json", .text sourceEventIdsJson), ("curated_at", .instant curatedAt)]

/-- The rows of the reports, each with the statement taken for it, and the
statements left. -/
def gatherRows (curatedAt : ℤ) :
    List (Report F) → Members Soc → Except PyError (List (Row F) × Members Soc)
  | [], socs => .ok ([], socs)
  | report :: reports, socs => do
    let row ← vesselRow L curatedAt report (socs.get report.reportId)
    let (rows, left) ← gatherRows curatedAt reports (socs.without report.reportId)
    return (row :: rows, left)

/-- What statements left over raise. -/
def orphanedError (orphaned : List Text) : PyError :=
  .valueError (lit "mrv.soc.v1 events reference reports that are not VERIFIED in silver " ++
    lit "(no unverified report may produce an SoC): " ++ Text.join (lit ", ") orphaned)

/-- `sorted(verified.items())`. -/
def sortReports (verified : List (Report F)) : List (Report F) :=
  sortBy (fun r => (toLex r.key : Text ×ₗ ℤ)) verified

/-- **`build_vessel_annual_rows`.** -/
def buildVesselAnnualRows (silverEvents : List (Row F)) (curatedAt : ℤ) :
    Except PyError (List (Row F)) := do
  let kept ← collectEvents L silverEvents ⟨[], []⟩
  let (rows, left) ← gatherRows L curatedAt (sortReports kept.verified) kept.socByReport
  if left = [] then .ok rows
  else .error (orphanedError ((left.map Prod.fst).insertionSort (· ≤ ·)))

end Mrv

end Lakehouse

import Lakehouse.Bluecarbon.Registry
import Lakehouse.Common.Decimal
import Lakehouse.Delta.Schema
import Lakehouse.Excise.StampFacts
import Lakehouse.Mrv.VesselAnnual
/-!
# Gold rows and their schemas

The builders check their events one by one, the schema of a gold table is
met by all of its rows at once. The rows of vessels and those of the
registry fit whatever the events hold; a stamp count is bounded below only,
so one event can keep the whole table from being written.
-/

namespace Lakehouse

open Ingest

variable {F : Type} [PyFloat F] {L : Library}

/-- `EXCISE_STAMP_FACTS_SCHEMA`. -/
def exciseStampFactsSchema : List SchemaField :=
  [⟨"event_id", .string, true⟩, ⟨"event_type", .string, true⟩, ⟨"occurred_at", .timestamp, true⟩,
    ⟨"assessment_id", .string, true⟩, ⟨"declaration_ref", .string, true⟩,
    ⟨"batch_id", .string, true⟩, ⟨"total_duty_kobo", .int64, true⟩, ⟨"quantity", .int64, true⟩,
    ⟨"payload_json", .string, true⟩, ⟨"curated_at", .timestamp, true⟩]

/-- `MRV_GOLD_SCHEMA`. -/
def mrvGoldSchema : List SchemaField :=
  [⟨"imo_number", .string, false⟩, ⟨"calendar_year", .int32, false⟩, ⟨"report_id", .string, false⟩,
    ⟨"fuel_totals_json", .string, false⟩, ⟨"co2_tonnes", .float64, true⟩,
    ⟨"attained_cii", .float64, true⟩, ⟨"required_cii", .float64, true⟩,
    ⟨"cii_rating", .string, true⟩, ⟨"soc_artifact_sha256", .string, true⟩,
    ⟨"source_event_ids_json", .string, false⟩, ⟨"curated_at", .timestamp, false⟩]

/-- `BLUECARBON_GOLD_SCHEMA`. -/
def bluecarbonGoldSchema : List SchemaField :=
  [⟨"project_id", .string, false⟩, ⟨"project_name", .string, true⟩, ⟨"state", .string, false⟩,
    ⟨"ecosystem", .string, true⟩, ⟨"methodology", .string, true⟩, ⟨"country_code", .string, true⟩,
    ⟨"strata_centroids_json", .string, true⟩, ⟨"external_registry", .string, true⟩,
    ⟨"external_project_id", .string, true⟩, ⟨"vintage_totals_json", .string, false⟩,
    ⟨"buffer_balance_kg_co2e", .float64, false⟩, ⟨"retirements_json", .string, false⟩,
    ⟨"source_event_ids_json", .string, false⟩, ⟨"curated_at", .timestamp, false⟩]

omit [PyFloat F] in
/-- A nullable text column holds a text or null. -/
theorem SchemaField.holds_optional {name : String} (t : Option Text) :
    (⟨name, .string, true⟩ : SchemaField).Holds (Event.optional t : Cell F) := by
  cases t with
  | none => exact SchemaField.holds_null
  | some t => exact SchemaField.holds_text t

/-! ## Vessels -/

namespace Mrv

variable {curatedAt : ℤ} {events : List (Row F)} {kept kept' : Kept F}

/-- A year that a report is accepted with. -/
def InYears (year : ℤ) : Prop := 2000 ≤ year ∧ year ≤ 9999

/-- A nullable float column holds an optional float. -/
theorem holds_optionalFloat {name : String} {fields : Members (Doc F)} {field : Text} {cell : Cell F}
    (h : optionalFloat fields field = .ok cell) :
    (⟨name, .float64, true⟩ : SchemaField).Holds cell := by
  unfold optionalFloat at h
  split at h
  · cases h
    exact SchemaField.holds_null
  · split_ifs at h
    cases h
    exact SchemaField.holds_float _
  · cases h
    exact SchemaField.holds_float _
  · cases h

omit [PyFloat F] in
/-- A calendar year accepted is within the years of a date. -/
theorem inYears_calendarYear {fields : Members (Doc F)} {year : ℤ}
    (h : calendarYear fields = .ok year) : InYears year := by
  unfold calendarYear at h
  split at h
  · split_ifs at h with hyear
    cases h
    exact hyear
  · cases h

omit [PyFloat F] in
/-- Setting a report keeps the years of the others. -/
theorem inYears_setReport {verified : List (Report F)} {report : Report F}
    (h : ∀ r ∈ verified, InYears r.calendarYear) (hreport : InYears report.calendarYear) :
    ∀ r ∈ setReport verified report, InYears r.calendarYear := by
  intro r hr
  unfold setReport at hr
  split_ifs at hr
  · obtain ⟨r', hr', rfl⟩ := List.mem_map.1 hr
    split_ifs
    · exact hreport
    · exact h r' hr'
  · obtain hr | hr := List.mem_append.1 hr
    · exact h r hr
    · rw [List.mem_singleton.1 hr]
      exact hreport

/-- One event keeps the years of the reports. -/
theorem inYears_addEvent {event : Row F} (hkept : ∀ r ∈ kept.verified, InYears r.calendarYear)
    (h : addEvent L kept event = .ok kept') : ∀ r ∈ kept'.verified, InYears r.calendarYear := by
  unfold addEvent at h
  split_ifs at h
  · obtain ⟨record, -, h⟩ := bind_eq_ok.1 h
    obtain ⟨soc, -, h⟩ := bind_eq_ok.1 h
    cases h
    exact hkept
  · obtain ⟨record, -, h⟩ := bind_eq_ok.1 h
    split_ifs at h
    · unfold addVerified at h
      obtain ⟨imo, -, h⟩ := bind_eq_ok.1 h
      obtain ⟨year, hyear, h⟩ := bind_eq_ok.1 h
      dsimp only at h
      split_ifs at h
      · obtain ⟨reportId, -, h⟩ := bind_eq_ok.1 h
        cases h
        exact inYears_setReport hkept (inYears_calendarYear hyear)
      · cases h
        exact hkept
    · cases h
      exact hkept
  · cases h
    exact hkept

/-- **The reports collected are of such years.** -/
theorem inYears_collectEvents (hkept : ∀ r ∈ kept.verified, InYears r.calendarYear)
    (h : collectEvents L events kept = .ok kept') :
    ∀ r ∈ kept'.verified, InYears r.calendarYear := by
  induction events generalizing kept with
  | nil =>
    cases h
    exact hkept
  | cons event events ih =>
    obtain ⟨next, hnext, h⟩ := bind_eq_ok.1 h
    exact ih (inYears_addEvent hkept hnext) h

/-- **The row of a report fits.** -/
theorem fits_vesselRow {report : Report F} {soc : Option Soc} {row : Row F}
    (hyear : InYears report.calendarYear) (h : vesselRow L curatedAt report soc = .ok row) :
    row.Fits mrvGoldSchema := by
  unfold vesselRow at h
  obtain ⟨columns, hcolumns, h⟩ := bind_eq_ok.1 h
  obtain ⟨sourceEventIdsJson, -, h⟩ := bind_eq_ok.1 h
  cases h
  unfold reportColumns at hcolumns
  obtain ⟨rating, -, hcolumns⟩ := bind_eq_ok.1 hcolumns
  obtain ⟨totals, -, hcolumns⟩ := bind_eq_ok.1 hcolumns
  obtain ⟨fuelTotalsJson, -, hcolumns⟩ := bind_eq_ok.1 hcolumns
  obtain ⟨co2Tonnes, hco2, hcolumns⟩ := bind_eq_ok.1 hcolumns
  obtain ⟨attainedCii, hattained, hcolumns⟩ := bind_eq_ok.1 hcolumns
  obtain ⟨requiredCii, hrequired, hcolumns⟩ := bind_eq_ok.1 hcolumns
  cases hcolumns
  have hint : (⟨"calendar_year", .int32, false⟩ : SchemaField).Holds
      (.int report.calendarYear : Cell F) := by
    obtain ⟨hlow, hhigh⟩ := hyear
    exact ⟨⟨by omega, by omega⟩, nofun⟩
  simp only [Row.Fits, mrvGoldSchema, List.forall_mem_cons]
  exact ⟨SchemaField.holds_text _, hint, SchemaField.holds_text _, SchemaField.holds_text _,
    holds_optionalFloat hco2, holds_optionalFloat hattained, holds_optionalFloat hrequired,
    SchemaField.holds_optional _, SchemaField.holds_optional _, SchemaField.holds_text _,
    SchemaField.holds_instant _, fun _ h => absurd h List.not_mem_nil⟩

/-- The rows gathered fit the schema. -/
theorem fits_gatherRows {reports : List (Report F)} {socs left : Members Soc} {rows : List (Row F)}
    (hyears : ∀ r ∈ reports, InYears r.calendarYear)
    (h : gatherRows L curatedAt reports socs = .ok (rows, left)) :
    ∀ row ∈ rows, row.Fits mrvGoldSchema := by
  induction reports generalizing socs rows left with
  | nil =>
    cases h
    exact fun _ h => absurd h List.not_mem_nil
  | cons report reports ih =>
    obtain ⟨hyear, hyears⟩ := List.forall_mem_cons.1 hyears
    obtain ⟨row, hrow, h⟩ := bind_eq_ok.1 h
    obtain ⟨⟨rows, left⟩, hrows, h⟩ := bind_eq_ok.1 h
    cases h
    exact List.forall_mem_cons.2 ⟨fits_vesselRow hyear hrow, ih hyears hrows⟩

/-- **The rows of vessels fit their schema.** -/
theorem fits_buildVesselAnnualRows {rows : List (Row F)}
    (h : buildVesselAnnualRows L events curatedAt = .ok rows) :
    ∀ row ∈ rows, row.Fits mrvGoldSchema := by
  unfold buildVesselAnnualRows at h
  obtain ⟨kept, hkept, h⟩ := bind_eq_ok.1 h
  obtain ⟨⟨rows', left⟩, hrows, h⟩ := bind_eq_ok.1 h
  dsimp only at h
  split_ifs at h
  cases h
  have hyears := inYears_collectEvents (fun _ h => absurd h List.not_mem_nil) hkept
  exact fits_gatherRows (fun r hr => hyears r (mem_sortBy.1 hr)) hrows

end Mrv

/-! ## Projects -/

namespace Bluecarbon

/-- **The row of a project fits.** -/
theorem fits_registryRow {curatedAt : ℤ} {totals : Members (BlockTotals F)}
    {retirements : Members (Retirements F)} {project : Text × Latest F} {row : Row F}
    (h : registryRow curatedAt totals retirements project = .ok row) :
    row.Fits bluecarbonGoldSchema := by
  unfold registryRow at h
  obtain ⟨_, -, h⟩ := bind_eq_ok.1 h
  obtain ⟨projectName, -, h⟩ := bind_eq_ok.1 h
  obtain ⟨state, -, h⟩ := bind_eq_ok.1 h
  obtain ⟨ecosystem, -, h⟩ := bind_eq_ok.1 h
  obtain ⟨methodology, -, h⟩ := bind_eq_ok.1 h
  obtain ⟨countryCode, -, h⟩ := bind_eq_ok.1 h
  obtain ⟨strataCentroidsJson, -, h⟩ := bind_eq_ok.1 h
  obtain ⟨externalRegistry, -, h⟩ := bind_eq_ok.1 h
  obtain ⟨externalProjectId, -, h⟩ := bind_eq_ok.1 h
  obtain ⟨vintageTotalsJson, -, h⟩ := bind_eq_ok.1 h
  obtain ⟨retirementsJson, -, h⟩ := bind_eq_ok.1 h
  obtain ⟨sourceEventIdsJson, -, h⟩ := bind_eq_ok.1 h
  cases h
  simp only [Row.Fits, bluecarbonGoldSchema, List.forall_mem_cons]
  exact ⟨SchemaField.holds_text _, SchemaField.holds_optional _, SchemaField.holds_text _,
    SchemaField.holds_optional _, SchemaField.holds_optional _, SchemaField.holds_optional _,
    SchemaField.holds_optional _, SchemaField.holds_optional _, SchemaField.holds_optional _,
    SchemaField.holds_text _, SchemaField.holds_float _, SchemaField.holds_text _,
    SchemaField.holds_text _, SchemaField.holds_instant _, fun _ h => absurd h List.not_mem_nil⟩

/-- **The rows of the registry fit their schema.** -/
theorem fits_buildPublicRegistryRows {events : List (Row F)} {curatedAt : ℤ} {rows : List (Row F)}
    (h : buildPublicRegistryRows L events curatedAt = .ok rows) :
    ∀ row ∈ rows, row.Fits bluecarbonGoldSchema := by
  unfold buildPublicRegistryRows at h
  obtain ⟨projects, -, h⟩ := bind_eq_ok.1 h
  obtain ⟨blocks, -, h⟩ := bind_eq_ok.1 h
  obtain ⟨retirements, -, h⟩ := bind_eq_ok.1 h
  obtain ⟨totals, -, h⟩ := bind_eq_ok.1 h
  intro row hrow
  obtain ⟨project, -, hproject⟩ := List.mem_map.1 (mem_of_collect h hrow)
  exact fits_registryRow hproject

end Bluecarbon

/-! ## Stamps -/

namespace Excise

variable {curatedAt : ℤ} {event row : Row F} {eventType : Text} {fields : Members (Doc F)}

/-- The fields an event of a type is counted by. -/
def countFields (eventType : Text) : List Text :=
  if eventType = assessedEventType then [lit "totalDutyKobo", lit "stampsRequired"]
  else if eventType = issuedEventType then [lit "quantity"]
  else if eventType = activatedEventType then [lit "activatedCount"]
  else []

/-- **An event whose counts are below `2^63`.** -/
def CountsInRange (event : Row F) : Prop :=
  ∀ eventType payloadJson fields, event.get "event_type" = .text eventType →
    event.get "payload_json" = .text payloadJson → domainFields payloadJson = .ok fields →
      ∀ name ∈ countFields eventType, ∀ n : ℤ, fieldOrNone fields name = .num (.int n : PyNum F) →
        n < 2 ^ 63

omit [PyFloat F] in
/-- A count accepted is an integer from the minimum on. -/
theorem requireInt_eq_ok {name : Text} {minimum n : ℤ} :
    requireInt fields name minimum = .ok n ↔
      fieldOrNone fields name = .num (.int n) ∧ minimum ≤ n := by
  unfold requireInt
  split
  · rename_i k hk
    rw [guard_eq_ok, hk, not_lt]
    constructor
    · rintro ⟨hle, h⟩
      cases h
      exact ⟨rfl, hle⟩
    · rintro ⟨h, hle⟩
      cases h
      exact ⟨hle, rfl⟩
  · rename_i hother
    exact iff_of_false nofun fun h => hother n h.1

omit [PyFloat F] in
/-- A count fits its column where it is below the bound. -/
theorem holds_count {name : Text} {column : String} {minimum n : ℤ} (hmin : 0 ≤ minimum)
    (h : requireInt fields name minimum = .ok n) :
    (⟨column, .int64, true⟩ : SchemaField).Holds (optionalInt (some n) : Cell F) ↔
      ∀ k : ℤ, fieldOrNone fields name = .num (.int k) → k < 2 ^ 63 := by
  obtain ⟨hfield, hle⟩ := requireInt_eq_ok.1 h
  constructor
  · rintro ⟨⟨-, hlt⟩, -⟩ k hk
    rw [hfield] at hk
    cases hk
    exact hlt
  · intro hall
    exact ⟨⟨by omega, hall n hfield⟩, nofun⟩

omit [PyFloat F] in
/-- A nullable count column holds null. -/
theorem holds_noCount {column : String} :
    (⟨column, .int64, true⟩ : SchemaField).Holds (optionalInt none : Cell F) :=
  SchemaField.holds_null

omit [PyFloat F] in
/-- **The counts of an event fit** where each of its fields is below the
bound. -/
theorem holds_stampCounts {total quantity : Option ℤ}
    (h : stampCounts eventType fields = .ok (total, quantity)) :
    ((⟨"total_duty_kobo", .int64, true⟩ : SchemaField).Holds (optionalInt total : Cell F) ∧
        (⟨"quantity", .int64, true⟩ : SchemaField).Holds (optionalInt quantity : Cell F)) ↔
      ∀ name ∈ countFields eventType, ∀ n : ℤ, fieldOrNone fields name = .num (.int n) →
        n < 2 ^ 63 := by
  unfold stampCounts at h
  unfold countFields
  split_ifs at h ⊢
  · obtain ⟨duty, hduty, h⟩ := bind_eq_ok.1 h
    obtain ⟨required, hrequired, h⟩ := bind_eq_ok.1 h
    cases h
    rw [holds_count le_rfl hduty, holds_count le_rfl hrequired]
    simp only [List.forall_mem_cons, List.not_mem_nil, false_implies, implies_true, and_true]
  · obtain ⟨issued, hissued, h⟩ := bind_eq_ok.1 h
    cases h
    rw [holds_count (by decide) hissued, and_iff_right holds_noCount]
    simp only [List.forall_mem_cons, List.not_mem_nil, false_implies, implies_true, and_true]
  · obtain ⟨activated, hactivated, h⟩ := bind_eq_ok.1 h
    cases h
    rw [holds_count le_rfl hactivated, and_iff_right holds_noCount]
    simp only [List.forall_mem_cons, List.not_mem_nil, false_implies, implies_true, and_true]
  · cases h
    exact iff_of_true ⟨holds_noCount, holds_noCount⟩ fun _ h => absurd h List.not_mem_nil

/-- **The row of an event fits** where the event's counts do. -/
theorem fits_stampFactRow (h : stampFactRow L curatedAt event = .ok row) :
    row.Fits exciseStampFactsSchema ↔ CountsInRange event := by
  unfold stampFactRow at h
  split at h
  · rename_i payloadJson hpayload
    split at h
    · rename_i occurredAt hoccurred
      split at h
      · rename_i eventId eventType hid htype
        obtain ⟨fields, hfields, h⟩ := bind_eq_ok.1 h
        obtain ⟨⟨total, quantity⟩, hcounts, h⟩ := bind_eq_ok.1 h
        cases h
        have hrange : CountsInRange event ↔ ∀ name ∈ countFields eventType, ∀ n : ℤ,
            fieldOrNone fields name = .num (.int n) → n < 2 ^ 63 := by
          constructor
          · exact fun hall => hall eventType payloadJson fields htype hpayload hfields
          · intro hall eventType' payloadJson' fields' htype' hpayload' hfields'
            cases htype.symm.trans htype'
            cases hpayload.symm.trans hpayload'
            cases hfields.symm.trans hfields'
            exact hall
        rw [hrange, ← holds_stampCounts hcounts]
        simp only [Row.Fits, exciseStampFactsSchema, List.forall_mem_cons]
        constructor
        · rintro ⟨-, -, -, -, -, -, hduty, hquantity, -⟩
          exact ⟨hduty, hquantity⟩
        · rintro ⟨hduty, hquantity⟩
          exact ⟨SchemaField.holds_text _, SchemaField.holds_text _, SchemaField.holds_instant _,
            SchemaField.holds_text _, SchemaField.holds_text _, SchemaField.holds_text _, hduty,
            hquantity, SchemaField.holds_text _, SchemaField.holds_instant _,
            fun _ h => absurd h List.not_mem_nil⟩
      · cases h
    · cases h
  · cases h

omit [PyFloat F] in
/-- An event of another type has no counts. -/
theorem countFields_of_notMem (h : eventType ∉ stampEventTypes) : countFields eventType = [] := by
  simp only [stampEventTypes, List.mem_cons, List.not_mem_nil, or_false, not_or] at h
  obtain ⟨hassessed, -, hissued, hactivated⟩ := h
  rw [countFields, if_neg hassessed, if_neg hissued, if_neg hactivated]

/-- **The rows of stamps fit their schema** where the counts of every event
do. -/
theorem fits_buildExciseStampFactRows {events rows : List (Row F)}
    (h : buildExciseStampFactRows L events curatedAt = .ok rows) :
    (∀ row ∈ rows, row.Fits exciseStampFactsSchema) ↔ ∀ event ∈ events, CountsInRange event := by
  unfold buildExciseStampFactRows at h
  constructor
  · intro hfits event hevent
    by_cases hstamp : isStampEvent event = true
    · have hmem : event ∈ sortBy eventOrder (events.filter isStampEvent) :=
        mem_sortBy.2 (List.mem_filter.2 ⟨hevent, hstamp⟩)
      rw [collect_eq_ok, List.forall₂_map_left_iff] at h
      obtain ⟨row, hrow, hbuilt⟩ := exists_of_forall₂ h.flip hmem
      exact (fits_stampFactRow hbuilt).1 (hfits row hrow)
    · intro eventType payloadJson fields htype _ _ name hname
      have hother : eventType ∉ stampEventTypes := by
        intro hin
        refine hstamp ?_
        rw [isStampEvent, htype]
        exact decide_eq_true hin
      rw [countFields_of_notMem hother] at hname
      cases hname
  · intro hrange row hrow
    obtain ⟨event, hevent, hbuilt⟩ := List.mem_map.1 (mem_of_collect h hrow)
    exact (fits_stampFactRow hbuilt).2 (hrange event (List.mem_filter.1 (mem_sortBy.1 hevent)).1)

end Excise

/-! ## The three tables -/

/-- **Gold rows fit their schemas**: those of vessels and of the registry
always, those of stamps exactly where every count is below `2^63`. -/
theorem gold_rows_fit (L : Library) (events : List (Row F)) (curatedAt : ℤ) :
    (∀ rows, Excise.buildExciseStampFactRows L events curatedAt = .ok rows →
      ((∀ row ∈ rows, row.Fits exciseStampFactsSchema) ↔
        ∀ event ∈ events, Excise.CountsInRange event)) ∧
    (∀ rows, Mrv.buildVesselAnnualRows L events curatedAt = .ok rows →
      ∀ row ∈ rows, row.Fits mrvGoldSchema) ∧
    ∀ rows, Bluecarbon.buildPublicRegistryRows L events curatedAt = .ok rows →
      ∀ row ∈ rows, row.Fits bluecarbonGoldSchema :=
  ⟨fun _ h => Excise.fits_buildExciseStampFactRows h, fun _ h => Mrv.fits_buildVesselAnnualRows h,
    fun _ h => Bluecarbon.fits_buildPublicRegistryRows h⟩

/-- The payload of an issue of stamps. -/
def issuedPayload (quantity : String) : Text :=
  lit ("\x7b\x22quantity\x22:" ++ quantity ++ "\x7d")

/-- An issue of stamps. -/
def issuedEvent (quantity : String) : Row Decimal :=
  [("event_id", .text (lit "e-1")), ("event_type", .text (lit "stamps.issued.v1")),
    ("occurred_at", .instant 1786521600000000), ("payload_json", .text (issuedPayload quantity))]

/-- The count of an issue is in range below `2 ^ 63`. -/
theorem countsInRange_issuedEvent {quantity : String} {n : ℤ}
    (h : ((domainFields (issuedPayload quantity) : Except PyError (Members (Doc Decimal))).toOption.map
      fun fields => fieldOrNone fields (lit "quantity")) = some (.num (.int n))) :
    Excise.CountsInRange (issuedEvent quantity) ↔ n < 2 ^ 63 := by
  obtain ⟨fields, hfields, hfield⟩ := Option.map_eq_some_iff.1 h
  rw [toOption_eq_some] at hfields
  constructor
  · intro hrange
    exact hrange (lit "stamps.issued.v1") (issuedPayload quantity) fields rfl rfl hfields
      (lit "quantity") List.mem_cons_self n hfield
  · intro hlt eventType payloadJson fields' htype hpayload hfields' name hname k hk
    have hissued : (Cell.text (lit "stamps.issued.v1") : Cell Decimal) = .text eventType := htype
    have hsame : (Cell.text (issuedPayload quantity) : Cell Decimal) = .text payloadJson := hpayload
    cases hissued
    cases hsame
    cases hfields.symm.trans hfields'
    obtain rfl := List.mem_singleton.1 hname
    cases hfield.symm.trans hk
    exact hlt

/-- One issue of 500 stamps. -/
theorem gold_rows_fit_issued : ∃ rows,
    Excise.buildExciseStampFactRows Library.ascii [issuedEvent "500"] 0 = .ok rows ∧
      ∀ row ∈ rows, row.Fits exciseStampFactsSchema := by
  obtain ⟨rows, hrows, -⟩ := exists_of_any
    (x := Excise.buildExciseStampFactRows Library.ascii [issuedEvent "500"] 0)
    (p := fun _ => true) (by decide +kernel)
  refine ⟨rows, hrows, ((gold_rows_fit Library.ascii [issuedEvent "500"] 0).1 rows hrows).2 ?_⟩
  intro event hevent
  rw [List.mem_singleton.1 hevent, countsInRange_issuedEvent (n := 500) (by decide +kernel)]
  decide

/-- **A quantity beyond its column** passes the builder. -/
theorem gold_rows_beyond : ∃ rows,
    Excise.buildExciseStampFactRows Library.ascii [issuedEvent "9223372036854775808"] 0 = .ok rows ∧
      ¬∀ row ∈ rows, row.Fits exciseStampFactsSchema := by
  obtain ⟨rows, hrows, -⟩ := exists_of_any
    (x := Excise.buildExciseStampFactRows Library.ascii [issuedEvent "9223372036854775808"] 0)
    (p := fun _ => true) (by decide +kernel)
  refine ⟨rows, hrows, fun hfits => ?_⟩
  have hrange := (Excise.fits_buildExciseStampFactRows hrows).1 hfits _ List.mem_cons_self
  rw [countsInRange_issuedEvent (n := 9223372036854775808) (by decide +kernel)] at hrange
  exact absurd hrange (by decide)

end Lakehouse

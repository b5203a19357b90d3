import Lakehouse.Delta.AppendRows
import Lakehouse.PyJson
/-!
# The gold statistics tables

A statistics run publishes one manifest row and its value rows, in this
order, by two appends. Every value row carries the id of the run that
computed it.
-/

namespace Lakehouse

namespace Stats

variable {F : Type}

def factsTableName : Text := lit "port_call_facts"
def runsTableName : Text := lit "port_kpi_runs"
def valuesTableName : Text := lit "port_kpi_values"

def valuesTableDescription : Text :=
  lit "Platform gold port_kpi_values: one row per KPI x period x port x segment; " ++
    lit "no-data rows are first class (value null + coverage note); append-only"

def runsTableDescription : Text :=
  lit "Platform gold port_kpi_runs: provenance manifest, one row per computation " ++
    lit "run with pinned source table versions and query hash; append-only"

/-- **A manifest**: one row of `port_kpi_runs`. -/
structure RunManifest where
  runId : Text
  computedAt : ℤ
  period : Text
  periodStart : ℤ
  periodEnd : ℤ
  sourceTableVersionsJson : Text
  queryDefinitionsSha256 : Text
  kpiCount : ℤ
  rowsEmitted : ℤ
  rowsNoData : ℤ
  reportSha256 : Text
  deriving DecidableEq

/-- The columns of `PORT_KPI_RUNS_SCHEMA`. -/
def portKpiRunsSchema : List String :=
  ["run_id", "computed_at", "period", "period_start", "period_end", "scope",
    "source_table_versions_json", "query_definitions_sha256", "kpi_count", "rows_emitted",
    "rows_no_data", "report_sha256"]

/-- The columns the replay guard compares in a manifest. -/
def runIdentityColumns : List String :=
  ["run_id", "period", "period_start", "period_end", "scope", "source_table_versions_json",
    "query_definitions_sha256", "kpi_count", "rows_emitted", "rows_no_data", "report_sha256"]

def RunManifest.row (m : RunManifest) : Row F :=
  [("run_id", .text m.runId), ("computed_at", .instant m.computedAt), ("period", .text m.period),
    ("period_start", .instant m.periodStart), ("period_end", .instant m.periodEnd),
    ("scope", .text (lit "platform")),
    ("source_table_versions_json", .text m.sourceTableVersionsJson),
    ("query_definitions_sha256", .text m.queryDefinitionsSha256), ("kpi_count", .int m.kpiCount),
    ("rows_emitted", .int m.rowsEmitted), ("rows_no_data", .int m.rowsNoData),
    ("report_sha256", .text m.reportSha256)]

/-- **A value row**: one row of `port_kpi_values`, but for its key. -/
structure ValueRow (F : Type) where
  runId : Text
  kpiId : Text
  period : Text
  portCode : Option Text
  shipClass : Option Text
  value : Option F
  unit : Text
  nObservations : ℤ
  percentile : Option Text
  coverageNote : Option Text
  definitionVersion : Text
  sourceTable : Text
  tableVersion : ℕ
  queryHash : Text
  computedAt : ℤ
  deriving DecidableEq

/-- The columns of `PORT_KPI_VALUES_SCHEMA`. -/
def portKpiValuesSchema : List String :=
  ["value_key", "run_id", "kpi_id", "period", "port_code", "ship_class", "value", "unit",
    "n_observations", "percentile", "coverage_note", "definition_version", "source_table",
    "table_version", "query_hash", "computed_at"]

/-- A text, or null. -/
def optionalText (t : Option Text) : Cell F := (t.map Cell.text).getD .null

/-- `str(value)` of a text or `None`. -/
def strOptional (t : Option Text) : Text := t.getD (lit "None")

/-- **`value_row_key`.** -/
def valueRowKey (L : Library) (v : ValueRow F) : Except PyError Text := do
  let material ← encodeUtf8 (Text.join [0x2F] [v.runId, v.kpiId, v.period, strOptional v.portCode,
    strOptional v.shipClass, strOptional v.percentile])
  return L.sha256 material

/-- The row of a value, under its key. -/
def ValueRow.row (v : ValueRow F) (valueKey : Text) : Row F :=
  [("run_id", .text v.runId), ("kpi_id", .text v.kpiId), ("period", .text v.period),
    ("port_code", optionalText v.portCode), ("ship_class", optionalText v.shipClass),
    ("value", (v.value.map Cell.float).getD .null), ("unit", .text v.unit),
    ("n_observations", .int v.nObservations), ("percentile", optionalText v.percentile),
    ("coverage_note", optionalText v.coverageNote),
    ("definition_version", .text v.definitionVersion), ("source_table", .text v.sourceTable),
    ("table_version", .int v.tableVersion), ("query_hash", .text v.queryHash),
    ("computed_at", .instant v.computedAt), ("value_key", .text valueKey)]

/-- **What a run publishes**: its manifest and its value rows, each under the
run's id. -/
structure Publication (F : Type) where
  manifest : RunManifest
  values : List (ValueRow F)
  ofRun : ∀ v ∈ values, v.runId = manifest.runId

variable [PyFloat F] (L : Library)

/-- **The publication of a run**: the manifest first, then the values. -/
def publish (runsUri valuesUri : Text) (p : Publication F) : Script F (Ingest.Appended × Ingest.Appended) := do
  let valueRows ← Script.pure (collect (p.values.map fun v => do
    let key ← valueRowKey L v
    return v.row key))
  let runs ← Ingest.appendRows L runsUri [p.manifest.row] "run_id" (some runsTableDescription)
    (some portKpiRunsSchema) (lit "platform_gold_port_kpi_runs")
  let values ← Ingest.appendRows L valuesUri valueRows "value_key" (some valuesTableDescription)
    (some portKpiValuesSchema) (lit "platform_gold_port_kpi_values")
  return (runs, values)

end Stats

end Lakehouse

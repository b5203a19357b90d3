import Lakehouse.Common.Csv
import Lakehouse.Delta.Table
import Lakehouse.PortStatistics.Values
/-!
# The report

The body of a report and its values as a CSV file. Whatever separators,
quotes and line breaks its texts have, the file parses to the header and
one record for every value row (`parse_reportValuesCsv`).
-/

namespace Lakehouse

namespace PortStatistics

variable {F : Type}

/-! ## The body -/

/-- The columns of a report's values. -/
def reportColumns : List String :=
  ["kpi_id", "period", "port_code", "ship_class", "value", "unit", "n_observations", "percentile",
    "coverage_note", "definition_version"]

/-- A text, or `None`. -/
def textOrNone (t : Option Text) : Cell F := (t.map Cell.text).getD .null

/-- What a report has of a value row. -/
def ValueRow.reported (row : ValueRow F) : Row F :=
  [("kpi_id", .text row.kpiId), ("period", .text row.period), ("port_code", textOrNone row.portCode),
    ("ship_class", textOrNone row.shipClass), ("value", (row.value.map Cell.float).getD .null),
    ("unit", .text row.unit), ("n_observations", .int row.nObservations),
    ("percentile", textOrNone row.percentile), ("coverage_note", textOrNone row.coverageNote),
    ("definition_version", .text row.definitionVersion)]

/-- The order of a report's values. -/
def reportKey (row : ValueRow F) : Text ×ₗ Text ×ₗ Text ×ₗ Text :=
  toLex (row.kpiId, toLex (strOf row.portCode, toLex (strOf row.shipClass, strOf row.percentile)))

/-- **The body of a report**: all its values have the ten columns. -/
structure ReportCore (F : Type) where
  schemaVersion : Text
  runId : Text
  scope : Text
  period : Text
  periodStart : Text
  periodEnd : Text
  sourceTableVersions : Members ℕ
  queryDefinitionsSha256 : Text
  kpiCount : ℕ
  rowsEmitted : ℕ
  rowsNoData : ℕ
  values : List (Row F)
  columns : ∀ row ∈ values, row.columns = reportColumns

/-- **`build_report_core`.** -/
def buildReportCore (L : Library) (runId period : Text) (periodStart periodEnd : ℤ)
    (sourceTableVersions : Members ℕ) (queryHash : Text) (valueRows : List (ValueRow F)) :
    ReportCore F where
  schemaVersion := lit "blueeconomy.stats.port-kpi-report.v1"
  runId
  scope := lit "platform"
  period
  periodStart := L.isoformat periodStart
  periodEnd := L.isoformat periodEnd
  sourceTableVersions
  queryDefinitionsSha256 := queryHash
  kpiCount := kpiDefinitions.length
  rowsEmitted := valueRows.length
  rowsNoData := valueRows.countP fun row => row.value.isNone
  values := (sortBy reportKey valueRows).map ValueRow.reported
  columns := by
    intro row hrow
    obtain ⟨v, -, rfl⟩ := List.mem_map.1 hrow
    rfl

/-! ## The file -/

variable [PyFloat F]

/-- `cell`. -/
def csvCell (value : Cell F) : Text :=
  match value with
  | .null => []
  | value =>
    if value.str.any fun c => c ∈ lit ",\"\n\r" then
      lit "\"" ++ value.str.flatMap (fun c => if c = 0x22 then lit "\"\"" else [c]) ++ lit "\""
    else value.str

/-- The line of a value row. -/
def csvLine (row : Row F) : Text :=
  Text.join (lit ",") (reportColumns.map fun column => csvCell (row.get column))

/-- `header`. -/
def csvHeader : Text :=
  lit "kpi_id,period,port_code,ship_class,value,unit," ++
    lit "n_observations,percentile,coverage_note,definition_version"

/-- **`report_values_csv`.** -/
def reportValuesCsv (core : ReportCore F) : Text :=
  Text.join (lit "\n") (csvHeader :: core.values.map csvLine) ++ lit "\n"

/-! ## Reading it back -/

/-- What a value is in the file: its `str`, and nothing for `None`. -/
def fieldOf : Cell F → Text
  | .null => []
  | value => value.str

open Csv

theorem field_csvCell (value : Cell F) : Field (csvCell value) (fieldOf value) := by
  have hstr : ∀ t : Text, Field
      (if t.any fun c => c ∈ lit ",\"\n\r" then
        lit "\"" ++ t.flatMap (fun c => if c = 0x22 then lit "\"\"" else [c]) ++ lit "\"" else t) t := by
    intro t
    split_ifs with hany
    · exact .quoted t
    · refine .plain fun c hc => ?_
      have hnot : c ∉ lit ",\"\n\r" := fun hmem =>
        hany (List.any_eq_true.2 ⟨c, hc, decide_eq_true hmem⟩)
      refine ⟨?_, ?_, ?_, ?_⟩
      all_goals
        rintro rfl
        exact hnot (by decide)
  cases value with
  | null => exact .plain fun _ h => absurd h List.not_mem_nil
  | text _ | int _ | float _ | instant _ | bool _ => exact hstr _

theorem record_csvLine (row : Row F) :
    Record (csvLine row ++ lit "\n") (reportColumns.map fun column => fieldOf (row.get column)) := by
  refine record_join (by simp [reportColumns]) ?_
  rw [List.forall₂_map_left_iff, List.forall₂_map_right_iff, List.forall₂_same]
  exact fun column _ => field_csvCell _

/-- The header is the names of the columns. -/
theorem record_header : Record (csvHeader ++ lit "\n") (reportColumns.map lit) := by
  have hplain : ∀ column ∈ reportColumns, Field (lit column) (lit column) := by
    intro column hcolumn
    have hall : reportColumns.all fun column => (lit column).all fun c => Plain c := by decide
    have hc := List.all_eq_true.1 hall column hcolumn
    exact .plain fun c hmem => of_decide_eq_true (List.all_eq_true.1 hc c hmem)
  have hjoin : csvHeader = Text.join [0x2C] (reportColumns.map lit) := by decide
  rw [hjoin]
  refine record_join (by simp [reportColumns]) ?_
  rw [List.forall₂_map_left_iff, List.forall₂_map_right_iff, List.forall₂_same]
  exact hplain

/-- **A report's file reads back**: the header, and for every value row the
texts of its values. -/
theorem parse_reportValuesCsv (core : ReportCore F) :
    parse (reportValuesCsv core) = some (reportColumns.map lit ::
      core.values.map fun row => reportColumns.map fun column => fieldOf (row.get column)) := by
  refine parse_eq_some.2 (file_join (List.cons_ne_nil _ _) (.cons record_header ?_))
  rw [List.forall₂_map_left_iff, List.forall₂_map_right_iff, List.forall₂_same]
  exact fun row _ => record_csvLine row

end PortStatistics

end Lakehouse

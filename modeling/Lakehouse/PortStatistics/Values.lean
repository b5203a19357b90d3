import Lakehouse.PortStatistics.Kpi
/-!
# Value rows

The rows a run publishes: for every figure and every port the rows of its
observations, a row without a value where there is none, and a row citing
the gap where the figure is blocked.
-/

namespace Lakehouse

namespace PortStatistics

variable {F : Type} (L : Library)

/-- What all rows of a run share. -/
structure RunContext where
  period : Text
  runId : Text
  sourceTable : Text
  tableVersion : ℕ
  queryHash : Text
  computedAt : ℤ

/-- A row of `port_kpi_values`. -/
structure ValueRow (F : Type) where
  runId : Text
  kpiId : Text
  period : Text
  portCode : Option Text
  shipClass : Option Text
  value : Option F
  unit : Text
  nObservations : ℕ
  percentile : Option Text
  coverageNote : Option Text
  definitionVersion : Text
  sourceTable : Text
  tableVersion : ℕ
  queryHash : Text
  computedAt : ℤ

/-- `base_row`. -/
def baseRow (run : RunContext) (definition : KpiDefinition) (portCode : Option Text) :
    ValueRow F where
  runId := run.runId
  kpiId := definition.kpiId
  period := run.period
  portCode
  shipClass := none
  value := none
  unit := definition.unit
  nObservations := 0
  percentile := none
  coverageNote := none
  definitionVersion := definition.definitionVersion
  sourceTable := run.sourceTable
  tableVersion := run.tableVersion
  queryHash := run.queryHash
  computedAt := run.computedAt

/-- A row without a value. -/
def noteRow (run : RunContext) (definition : KpiDefinition) (portCode : Option Text) (note : Text) :
    ValueRow F :=
  { (baseRow run definition portCode : ValueRow F) with coverageNote := some note }

/-- The row of an observation. -/
def observationRow (run : RunContext) (definition : KpiDefinition) (portCode : Option Text)
    (o : Observation F) : ValueRow F :=
  { (baseRow run definition portCode : ValueRow F) with
    shipClass := o.shipClass
    value := some o.value
    nObservations := o.nObservations
    percentile := o.percentile }

/-- `f"{gap.gap_id}: {gap.description}"`. -/
def gapNote (gap : StatsGap) : Text := gap.gapId ++ lit ": " ++ gap.description

/-- What is observed of a figure at a port. -/
def observedAt (observations : Members (List (Observation F))) (definition : KpiDefinition)
    (portCode : Option Text) : List (Observation F) :=
  ((observations.get definition.kpiId).getD []).filter fun o => o.portCode = portCode

/-- The order of the rows of a figure and a port. -/
def segmentKey (o : Observation F) : Text ×ₗ Text := toLex (strOf o.shipClass, strOf o.percentile)

/-- **The rows of one figure at one port.** -/
def rowsAt (run : RunContext) (observations : Members (List (Observation F)))
    (definition : KpiDefinition) (portCode : Option Text) : List (ValueRow F) :=
  match definition.gap with
  | some gap => [noteRow run definition portCode (gapNote gap)]
  | none =>
    match observedAt observations definition portCode with
    | [] => [noteRow run definition portCode noDataNote]
    | emitted => (sortBy segmentKey emitted).map (observationRow run definition portCode)

/-- **`emit_value_rows`.** -/
def emitValueRows (run : RunContext) (observations : Members (List (Observation F)))
    (discoveredPorts : List (Option Text)) : List (ValueRow F) :=
  kpiDefinitions.flatMap fun definition =>
    discoveredPorts.flatMap fun portCode => rowsAt run observations definition portCode

/-- The ports of the facts, scans and bookings that have one. -/
def portCodes (facts : List (Fact F)) (gateScans : List GateScan) (bookings : List (Booking F)) :
    List Text :=
  facts.map Fact.portCode ++ gateScans.filterMap GateScan.portCode ++
    bookings.filterMap Booking.portCode

/-- **`discover_ports`.** -/
def discoverPorts (facts : List (Fact F)) (gateScans : List GateScan)
    (bookings : List (Booking F)) : List (Option Text) :=
  match (portCodes facts gateScans bookings).dedup.insertionSort (· ≤ ·) with
  | [] => [none]
  | ordered => ordered.map some

/-- The text `value_row_key` digests. -/
def valueRowMaterial (row : ValueRow F) : Text :=
  Text.join (lit "/") [row.runId, row.kpiId, row.period, strOf row.portCode, strOf row.shipClass,
    strOf row.percentile]

/-- **`value_row_key`.** -/
def valueRowKey (row : ValueRow F) : Except PyError Text :=
  L.sha256 <$> encodeUtf8 (valueRowMaterial row)

/-! ## The ports -/

variable {facts : List (Fact F)} {gateScans : List GateScan} {bookings : List (Booking F)}

theorem mem_discoverPorts {port : Text} :
    some port ∈ discoverPorts facts gateScans bookings ↔ port ∈ portCodes facts gateScans bookings := by
  have hmem : port ∈ portCodes facts gateScans bookings ↔
      port ∈ (portCodes facts gateScans bookings).dedup.insertionSort (· ≤ ·) := by
    rw [List.mem_insertionSort, List.mem_dedup]
  rw [hmem, discoverPorts]
  split
  · rename_i h
    simp [h]
  · rw [List.mem_map]
    simp

/-- The absent port is discovered where there is no other. -/
theorem none_mem_discoverPorts :
    none ∈ discoverPorts facts gateScans bookings ↔ portCodes facts gateScans bookings = [] := by
  have hnil : portCodes facts gateScans bookings = [] ↔
      (portCodes facts gateScans bookings).dedup.insertionSort (· ≤ ·) = [] := by
    rw [← List.length_eq_zero_iff (l := List.insertionSort _ _), List.length_insertionSort,
      List.length_eq_zero_iff, List.dedup_eq_nil]
  rw [hnil, discoverPorts]
  split
  · rename_i h
    simp [h]
  · rename_i h
    simpa using h

theorem nodup_discoverPorts : (discoverPorts facts gateScans bookings).Nodup := by
  rw [discoverPorts]
  split
  · exact List.nodup_singleton _
  · refine List.Nodup.map (Option.some_injective Text) ?_
    exact (List.perm_insertionSort _ _).nodup_iff.2 (List.nodup_dedup _)

end PortStatistics

end Lakehouse

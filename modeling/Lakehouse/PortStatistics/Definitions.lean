import Lakehouse.Common.Text
/-!
# The figures of a port

The figures the statistics publish, and the gaps that block some of them.
A figure blocked by a gap is never computed: its rows cite the gap.
-/

namespace Lakehouse

namespace PortStatistics

def portCallEventType : Text := lit "ports.port-call.v1"

def gateScanEventType : Text := lit "ports.gate.scan.v1"

def bookingEventType : Text := lit "ports.booking.created.v1"

/-- `PORT_CALL_STATUSES`. -/
def portCallStatuses : List Text :=
  [lit "DRAFT", lit "SUBMITTED", lit "ACCEPTED", lit "ARRIVED", lit "BERTHED", lit "DEPARTED",
    lit "COMPLETED", lit "REJECTED"]

/-- `ACCEPTED_OR_BEYOND`. -/
def acceptedOrBeyond : List Text :=
  [lit "ACCEPTED", lit "ARRIVED", lit "BERTHED", lit "DEPARTED", lit "COMPLETED"]

def noDataNote : Text := lit "no source events in period"

def p50 : Text := lit "P50"

def p90 : Text := lit "P90"

/-! ## Gaps -/

/-- **A documented integration gap.** -/
structure StatsGap where
  gapId : Text
  description : Text

def gapBerthRef : StatsGap where
  gapId := lit "GAP-STATS-BERTH-REF"
  description :=
    lit "No authoritative berth reference data: berth-occupancy % is unavailable until the " ++
    lit "Ministry publishes berth counts per port."

def gapSwEvents : StatsGap where
  gapId := lit "GAP-STATS-SW-EVENTS"
  description :=
    lit "Singlewindow declaration lifecycle events are not yet bridged into the platform " ++
    lit "scope: declaration clearance time is pending."

/-! ## Definitions -/

/-- **A pinned definition.** A figure with a gap is blocked by it. -/
structure KpiDefinition where
  kpiId : Text
  definition : Text
  unit : Text
  definitionVersion : Text
  sourceEventTypes : List Text
  gap : Option StatsGap

def vesselCalls : KpiDefinition where
  kpiId := lit "vessel_calls"
  definition :=
    lit "Count of distinct port calls whose latest lifecycle status is ACCEPTED or beyond, " ++
    lit "attributed to the period by arrival time, segmented by port and ship class (UNCTAD " ++
    lit "1976 Port Performance Indicators; UNCTAD Review of Maritime Transport)."
  unit := lit "calls"
  definitionVersion := lit "1.0.0"
  sourceEventTypes := [portCallEventType]
  gap := none

def vesselTurnaroundHours : KpiDefinition where
  kpiId := lit "vessel_turnaround_hours"
  definition :=
    lit "Hours from arrival to departure per port call (arrival to departure, " ++
    lit "UNCTAD/industry definition); median (P50) and P90 per port per period, Hyndman-Fan " ++
    lit "type-7 quantiles."
  unit := lit "hours"
  definitionVersion := lit "1.0.0"
  sourceEventTypes := [portCallEventType]
  gap := none

def waitingTimeHours : KpiDefinition where
  kpiId := lit "waiting_time_hours"
  definition :=
    lit "Hours from arrival to berthing per port call where both timestamps exist (UNCTAD " ++
    lit "1976 waiting time); median (P50) and P90 per port per period."
  unit := lit "hours"
  definitionVersion := lit "1.0.0"
  sourceEventTypes := [portCallEventType]
  gap := none

def berthOccupancyPct : KpiDefinition where
  kpiId := lit "berth_occupancy_pct"
  definition :=
    lit "Occupied berth-hours / (berths x window hours) x 100 per port per period (UNCTAD " ++
    lit "RMT congestion threshold ~85%). BLOCKED by GAP-STATS-BERTH-REF: no authoritative " ++
    lit "berth reference data."
  unit := lit "percent"
  definitionVersion := lit "1.0.0"
  sourceEventTypes := [portCallEventType]
  gap := some gapBerthRef

def throughputTonnes : KpiDefinition where
  kpiId := lit "throughput_tonnes"
  definition :=
    lit "Sum of declared cargo tonnage over port calls in the period (UNCTAD RMT port " ++
    lit "throughput). TEU throughput is unavailable (GAP-STATS-TEU); tonnes only."
  unit := lit "tonnes"
  definitionVersion := lit "1.0.0"
  sourceEventTypes := [portCallEventType]
  gap := none

def truckGateTurnaroundMinutes : KpiDefinition where
  kpiId := lit "truck_gate_turnaround_minutes"
  definition :=
    lit "Minutes from gate-in scan to the next gate-out scan per truck and terminal; median " ++
    lit "per port per period (port-interop eCallUp gate scans)."
  unit := lit "minutes"
  definitionVersion := lit "1.0.0"
  sourceEventTypes := [gateScanEventType]
  gap := none

def bookingLeadTimeHours : KpiDefinition where
  kpiId := lit "booking_lead_time_hours"
  definition :=
    lit "Hours from booking creation to the booked slot window start; median per port per " ++
    lit "period (ports.booking.created.v1)."
  unit := lit "hours"
  definitionVersion := lit "1.0.0"
  sourceEventTypes := [bookingEventType]
  gap := none

def slotUtilisationPct : KpiDefinition where
  kpiId := lit "slot_utilisation_pct"
  definition :=
    lit "Booked slots / offered slots x 100 per port per period, over booking events " ++
    lit "carrying both counters."
  unit := lit "percent"
  definitionVersion := lit "1.0.0"
  sourceEventTypes := [bookingEventType]
  gap := none

def declarationClearanceHours : KpiDefinition where
  kpiId := lit "declaration_clearance_hours"
  definition :=
    lit "Hours from declaration submission to clearance, median per lane per period. BLOCKED " ++
    lit "by GAP-STATS-SW-EVENTS: singlewindow declaration lifecycle events are not yet " ++
    lit "bridged into the platform scope."
  unit := lit "hours"
  definitionVersion := lit "1.0.0"
  sourceEventTypes := []
  gap := some gapSwEvents

/-- `KPI_DEFINITIONS`. -/
def kpiDefinitions : List KpiDefinition :=
  [vesselCalls, vesselTurnaroundHours, waitingTimeHours, berthOccupancyPct,
    throughputTonnes, truckGateTurnaroundMinutes, bookingLeadTimeHours, slotUtilisationPct,
    declarationClearanceHours]

theorem nodup_kpiIds : (kpiDefinitions.map KpiDefinition.kpiId).Nodup := by decide

theorem vesselCalls_mem : vesselCalls ∈ kpiDefinitions := List.mem_cons_self

theorem slash_notMem_kpiId : ∀ d ∈ kpiDefinitions, 0x2F ∉ d.kpiId := by decide

end PortStatistics

end Lakehouse

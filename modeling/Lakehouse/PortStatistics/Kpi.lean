import Lakehouse.Common.Dict
import Lakehouse.Common.Sort
import Lakehouse.PortStatistics.Silver
/-!
# The observations

Seven aggregations over the facts, scans and bookings of a period. Each
groups what it counts by port and reduces every group to a figure with the
number of observations behind it; nothing is observed where nothing was
counted.
-/

namespace Lakehouse

namespace PortStatistics

open Arithmetic

variable {F : Type} [Arithmetic F]

/-- A figure of a port. -/
@[ext] structure Observation (F : Type) where
  portCode : Option Text
  shipClass : Option Text
  percentile : Option Text
  value : F
  nObservations : ℕ
  deriving DecidableEq

/-- `str(value)` of a text or `None`. -/
def strOf (t : Option Text) : Text := t.getD (lit "None")

/-! ## Quantiles -/

/-- `items[index]`, from the end where the index is negative. -/
def itemAt {α : Type} (items : List α) (index : ℤ) : Except PyError α :=
  let index := if index < 0 then index + items.length else index
  match if index < 0 then none else items[index.toNat]? with
  | some a => .ok a
  | none => .error .indexError

/-- The type-7 quantile of a sorted list of several values. -/
def interpolate (ordered : List F) (quantile : F) : Except PyError F := do
  let last : ℤ := ordered.length - 1
  let rank := mul quantile (ofInt last)
  let lower := trunc rank
  let fraction := sub rank (ofInt lower)
  let low ← itemAt ordered lower
  let high ← itemAt ordered (min (lower + 1) last)
  return add low (mul fraction (sub high low))

/-- **`percentile_linear`.** -/
def percentileLinear (values : List F) (quantile : F) : Except PyError F :=
  if values.isEmpty then
    .error (.valueError (lit "quantile of an empty observation set is undefined"))
  else if (lt (ofInt 0) quantile && lt quantile (ofInt 1)) = false then
    .error (.valueError (lit "quantile must be within (0, 1)"))
  else match sorted values with
  | [x] => .ok x
  | ordered => interpolate ordered quantile

/-- `0.5`. -/
def half : F := ofNumeral ⟨false, lit "0", some (lit "5"), none⟩

/-- `0.9`. -/
def nineTenths : F := ofNumeral ⟨false, lit "0", some (lit "9"), none⟩

/-! ## Gate turnarounds -/

/-- The order of the scans of a truck at a terminal. -/
def GateScan.order (s : GateScan) : ℤ ×ₗ Text := toLex (s.occurredAt, s.eventId)

/-- The truck and the terminal of a scan. -/
def GateScan.key (s : GateScan) : Text × Text := (s.truckRef, s.terminal)

/-- A scan in, and the scan out that closes it: the loop keeps the last scan
in that is still open. -/
def pairScans : Option GateScan → List GateScan → List (GateScan × GateScan)
  | _, [] => []
  | openIn, scan :: scans =>
    match scan.direction, openIn with
    | .gateIn, _ => pairScans (some scan) scans
    | .gateOut, some openIn => (openIn, scan) :: pairScans none scans
    | .gateOut, none => pairScans none scans

/-- The turnarounds, truck by truck and terminal by terminal. -/
def gatePairs (scans : List GateScan) : List (GateScan × GateScan) :=
  (Dict.gather (scans.map fun s => (s.key, s))).flatMap fun group =>
    pairScans none (sortBy GateScan.order group.2)

/-- The minutes of a turnaround. -/
def minutes (pair : GateScan × GateScan) : F :=
  div (totalSeconds (pair.2.occurredAt - pair.1.occurredAt)) (ofInt 60)

/-- **`_gate_durations_minutes`.** -/
def gateDurationsMinutes (scans : List GateScan) : Dict (Option Text) (List F) :=
  Dict.gather (((gatePairs scans).filter fun pair => le (ofInt 0) (minutes pair : F)).map fun pair =>
    (pair.2.portCode, minutes pair))

/-! ## Figures by port -/

/-- The figures of each port of a dict, in the order of the ports' texts,
with one figure for each percentile. -/
def portObservations {β : Type} (percentiles : List (Option Text))
    (figure : Option Text → List β → Except PyError F) (dict : Dict (Option Text) (List β)) :
    Except PyError (List (Observation F)) :=
  collect ((sortBy (fun entry => strOf entry.1) dict).flatMap fun entry =>
    percentiles.map fun percentile => do
      let value ← figure percentile entry.2
      return ⟨entry.1, none, percentile, value, entry.2.length⟩)

/-- `_round6(percentile_linear(values, 0.5 if percentile == P50 else 0.9))`. -/
def quantileFigure (percentile : Option Text) (values : List F) : Except PyError F :=
  round6 <$> percentileLinear values (if percentile = some p50 then half else nineTenths)

/-- `_round6(sum(values))`. -/
def totalFigure (_ : Option Text) (values : List F) : Except PyError F := .ok (round6 (sum values))

/-- `_round6(100.0 * sum(booked) / sum(offered))`. -/
def utilisationFigure (_ : Option Text) (slots : List (F × F)) : Except PyError F :=
  round6 <$> divide (mul (ofInt 100) (sum (slots.map Prod.fst))) (sum (slots.map Prod.snd))

/-! ## The seven figures -/

/-- `status in ACCEPTED_OR_BEYOND`. -/
def Fact.isAccepted (f : Fact F) : Bool := f.status ∈ acceptedOrBeyond

/-- The counts a call is added to: its class, and its port's aggregate. -/
def countedUnder (f : Fact F) : List (Text × Option Text) :=
  (f.portCode, f.shipClass) :: if f.shipClass = none then [] else [(f.portCode, none)]

/-- `calls_by_port_class`. -/
def callsByPortClass (accepted : List (Fact F)) : Dict (Text × Option Text) ℕ :=
  Dict.tally (accepted.flatMap countedUnder)

/-- The counts of the calls, by port and class. -/
def callObservations (accepted : List (Fact F)) : List (Observation F) :=
  (sortBy (fun entry => (toLex (entry.1.1, strOf entry.1.2) : Text ×ₗ Text))
    (callsByPortClass accepted)).map fun entry =>
      ⟨some entry.1.1, entry.1.2, none, ofInt entry.2, entry.2⟩

/-- The hours from an instant to a later one, if both are there. -/
def hoursBetween (start stop : Option ℤ) : Option F :=
  match start, stop with
  | some start, some stop => if start ≤ stop then some (hours (stop - start)) else none
  | _, _ => none

/-- What is known of each call, by port. -/
def byPort (measure : Fact F → Option F) (accepted : List (Fact F)) : Dict (Option Text) (List F) :=
  Dict.gather (accepted.filterMap fun f => (measure f).map fun x => (some f.portCode, x))

/-- The slot counters of a booking that has both. -/
def slotCounters (b : Booking F) : Except PyError (Option (Option Text × F × F)) :=
  match b.bookedSlots, b.offeredSlots with
  | some booked, some offered =>
    if le offered (ofInt 0) || lt booked (ofInt 0) then
      .error (.valueError (lit "booking slot counters must be non-negative with offered > 0"))
    else .ok (some (b.portCode, booked, offered))
  | _, _ => .ok none

/-- **`compute_kpi_observations`.** -/
def computeKpiObservations (facts : List (Fact F)) (gateScans : List GateScan)
    (bookings : List (Booking F)) : Except PyError (Members (List (Observation F))) := do
  let accepted := facts.filter Fact.isAccepted
  let turnaround ← portObservations [some p50, some p90] quantileFigure
    (byPort (fun f => hoursBetween f.arrivedAt f.departedAt) accepted)
  let waiting ← portObservations [some p50, some p90] quantileFigure
    (byPort (fun f => hoursBetween f.arrivedAt f.berthedAt) accepted)
  let throughput ← portObservations [none] totalFigure (byPort Fact.declaredTonnage accepted)
  let gates ← portObservations [some p50] quantileFigure (gateDurationsMinutes gateScans)
  let slots ← collect (bookings.map slotCounters)
  let leads ← portObservations [some p50] quantileFigure
    (Dict.gather (bookings.map fun b => (b.portCode, b.leadTimeHours)))
  let utilisation ← portObservations [none] utilisationFigure (Dict.gather slots.reduceOption)
  return [(vesselCalls.kpiId, callObservations accepted),
    (vesselTurnaroundHours.kpiId, turnaround), (waitingTimeHours.kpiId, waiting),
    (throughputTonnes.kpiId, throughput), (truckGateTurnaroundMinutes.kpiId, gates),
    (bookingLeadTimeHours.kpiId, leads), (slotUtilisationPct.kpiId, utilisation)]

/-! ## What is observed -/

section

variable {β : Type} {percentiles : List (Option Text)} {figure : Option Text → List β → Except PyError F}
  {dict : Dict (Option Text) (List β)} {l : List (Observation F)} {o : Observation F}

/-- The port, class and percentile of an observation. -/
def Observation.segment (o : Observation F) : Option Text × Option Text × Option Text :=
  (o.portCode, o.shipClass, o.percentile)

/-- **An observation of the values of a port.** -/
structure Observes (figure : Option Text → List β → Except PyError F) (port : Option Text)
    (values : List β) (percentile : Option Text) (o : Observation F) : Prop where
  segment : o.segment = (port, none, percentile)
  number : o.nObservations = values.length
  value : figure percentile values = .ok o.value

/-- The figures asked for: each port with each percentile, in order. -/
def figuresOf (percentiles : List (Option Text)) (dict : Dict (Option Text) (List β)) :
    List ((Option Text × List β) × Option Text) :=
  (sortBy (fun entry => strOf entry.1) dict).flatMap fun entry =>
    percentiles.map fun percentile => (entry, percentile)

/-- The observation of a port and a percentile. -/
def observe (figure : Option Text → List β → Except PyError F)
    (q : (Option Text × List β) × Option Text) : Except PyError (Observation F) := do
  let value ← figure q.2 q.1.2
  return ⟨q.1.1, none, q.2, value, q.1.2.length⟩

omit [Arithmetic F] in
/-- The observations are made entry by entry and percentile by percentile. -/
theorem portObservations_eq (percentiles : List (Option Text))
    (figure : Option Text → List β → Except PyError F) (dict : Dict (Option Text) (List β)) :
    portObservations percentiles figure dict =
      collect ((figuresOf percentiles dict).map (observe figure)) := by
  rw [figuresOf, List.map_flatMap]
  simp only [List.map_map]
  rfl

omit [Arithmetic F] in
/-- An observation is the figure of its entry. -/
theorem observe_eq_ok {q : (Option Text × List β) × Option Text} (h : observe figure q = .ok o) :
    Observes figure q.1.1 q.1.2 q.2 o := by
  obtain ⟨value, hvalue, h⟩ := bind_eq_ok.1 h
  cases h
  exact ⟨rfl, rfl, hvalue⟩

omit [Arithmetic F] in
/-- One observation for each port and percentile, in order. -/
theorem forall₂_of_portObservations (h : portObservations percentiles figure dict = .ok l) :
    List.Forall₂ (fun q o => Observes figure q.1.1 q.1.2 q.2 o) (figuresOf percentiles dict) l := by
  rw [portObservations_eq, collect_eq_ok, List.forall₂_map_left_iff] at h
  exact h.imp fun q o ho => observe_eq_ok ho

omit [Arithmetic F] in
/-- An observation is made of some entry for some percentile. -/
theorem mem_portObservations (h : portObservations percentiles figure dict = .ok l) (ho : o ∈ l) :
    ∃ entry ∈ dict, ∃ percentile ∈ percentiles, Observes figure entry.1 entry.2 percentile o := by
  obtain ⟨q, hq, ho⟩ := exists_of_forall₂ (forall₂_of_portObservations h) ho
  obtain ⟨entry, hentry, hq⟩ := List.mem_flatMap.1 hq
  obtain ⟨percentile, hpercentile, rfl⟩ := List.mem_map.1 hq
  exact ⟨entry, mem_sortBy.1 hentry, percentile, hpercentile, ho⟩

omit [Arithmetic F] in
/-- Every entry has an observation for every percentile. -/
theorem exists_mem_portObservations (h : portObservations percentiles figure dict = .ok l)
    {port : Option Text} {values : List β} (hentry : (port, values) ∈ dict) {percentile : Option Text}
    (hp : percentile ∈ percentiles) : ∃ o ∈ l, Observes figure port values percentile o := by
  have hq : ((port, values), percentile) ∈ figuresOf percentiles dict :=
    List.mem_flatMap.2 ⟨_, mem_sortBy.2 hentry, List.mem_map.2 ⟨percentile, hp, rfl⟩⟩
  exact exists_of_forall₂ (forall₂_of_portObservations h).flip hq

/-- **Observations of one figure**: one for each segment, of something. -/
structure Segmented (l : List (Observation F)) : Prop where
  nodup : (l.map Observation.segment).Nodup
  pos : ∀ o ∈ l, o.nObservations ≠ 0

omit [Arithmetic F] in
/-- **The observations of distinct ports are of distinct segments.** -/
theorem segmented_portObservations (hd : (dict.map Prod.fst).Nodup)
    (hne : ∀ entry ∈ dict, entry.2 ≠ []) (hp : percentiles.Nodup)
    (h : portObservations percentiles figure dict = .ok l) : Segmented l := by
  constructor
  · have hmap : List.Forall₂ Eq ((figuresOf percentiles dict).map fun q => (q.1.1, none, q.2))
        (l.map Observation.segment) := by
      rw [List.forall₂_map_left_iff, List.forall₂_map_right_iff]
      exact (forall₂_of_portObservations h).imp fun q o ho => ho.segment.symm
    rw [List.forall₂_eq_eq_eq] at hmap
    have hkeys : ((sortBy (fun entry => strOf entry.1) dict).map Prod.fst).Nodup :=
      ((perm_sortBy _ dict).map Prod.fst).nodup_iff.2 hd
    rw [← hmap, figuresOf, List.map_flatMap, List.nodup_flatMap]
    refine ⟨fun entry _ => ?_, (List.pairwise_map.1 hkeys).imp fun hne => ?_⟩
    · rw [List.map_map]
      exact hp.map fun p q hpq => by simpa using hpq
    · rw [Function.onFun_apply, List.disjoint_left]
      intro s hs hs'
      simp only [List.map_map, List.mem_map, Function.comp_apply] at hs hs'
      obtain ⟨_, _, rfl⟩ := hs
      obtain ⟨_, _, heq⟩ := hs'
      exact hne (congrArg Prod.fst heq).symm
  · intro o ho
    obtain ⟨entry, hentry, _, _, hobs⟩ := mem_portObservations h ho
    rw [hobs.number, ne_eq, List.length_eq_zero_iff]
    exact hne entry hentry

end

variable {facts accepted : List (Fact F)} {gateScans : List GateScan} {bookings : List (Booking F)}
  {observations : Members (List (Observation F))} {port : Text} {shipClass : Text}

/-- The seven figures of a run. -/
theorem computeKpiObservations_eq_ok
    (h : computeKpiObservations facts gateScans bookings = .ok observations) :
    ∃ turnaround waiting throughput gates slots leads utilisation,
      portObservations [some p50, some p90] quantileFigure
        (byPort (fun f => hoursBetween f.arrivedAt f.departedAt) (facts.filter Fact.isAccepted)) =
          .ok turnaround ∧
      portObservations [some p50, some p90] quantileFigure
        (byPort (fun f => hoursBetween f.arrivedAt f.berthedAt) (facts.filter Fact.isAccepted)) =
          .ok waiting ∧
      portObservations [none] totalFigure
        (byPort Fact.declaredTonnage (facts.filter Fact.isAccepted)) = .ok throughput ∧
      portObservations [some p50] quantileFigure (gateDurationsMinutes gateScans) = .ok gates ∧
      collect (bookings.map slotCounters) = .ok slots ∧
      portObservations [some p50] quantileFigure
        (Dict.gather (bookings.map fun b => (b.portCode, b.leadTimeHours))) = .ok leads ∧
      portObservations [none] utilisationFigure (Dict.gather slots.reduceOption) = .ok utilisation ∧
      observations = [(vesselCalls.kpiId, callObservations (facts.filter Fact.isAccepted)),
        (vesselTurnaroundHours.kpiId, turnaround), (waitingTimeHours.kpiId, waiting),
        (throughputTonnes.kpiId, throughput), (truckGateTurnaroundMinutes.kpiId, gates),
        (bookingLeadTimeHours.kpiId, leads), (slotUtilisationPct.kpiId, utilisation)] := by
  obtain ⟨turnaround, h₁, h⟩ := bind_eq_ok.1 h
  obtain ⟨waiting, h₂, h⟩ := bind_eq_ok.1 h
  obtain ⟨throughput, h₃, h⟩ := bind_eq_ok.1 h
  obtain ⟨gates, h₄, h⟩ := bind_eq_ok.1 h
  obtain ⟨slots, h₅, h⟩ := bind_eq_ok.1 h
  obtain ⟨leads, h₆, h⟩ := bind_eq_ok.1 h
  obtain ⟨utilisation, h₇, h⟩ := bind_eq_ok.1 h
  cases h
  exact ⟨turnaround, waiting, throughput, gates, slots, leads, utilisation, h₁, h₂, h₃, h₄, h₅, h₆,
    h₇, rfl⟩

/-- The calls counted are the accepted ones. -/
theorem vesselCalls_of_computed
    (h : computeKpiObservations facts gateScans bookings = .ok observations) :
    observations.get vesselCalls.kpiId = some (callObservations (facts.filter Fact.isAccepted)) := by
  obtain ⟨_, _, _, _, _, _, _, -, -, -, -, -, -, -, rfl⟩ := computeKpiObservations_eq_ok h
  rfl

/-! ## The counts of the calls -/

omit [Arithmetic F] in
/-- A count is that of the calls counted under its key. -/
theorem mem_callsByPortClass {key : Text × Option Text} {n : ℕ} :
    (key, n) ∈ callsByPortClass accepted ↔ n = (accepted.flatMap countedUnder).count key ∧ n ≠ 0 :=
  Dict.mem_tally

omit [Arithmetic F] in
/-- A call is counted under its keys. -/
theorem count_countedUnder {f : Fact F} {key : Text × Option Text} (hf : f ∈ accepted)
    (hkey : key ∈ countedUnder f) : (accepted.flatMap countedUnder).count key ≠ 0 :=
  (List.count_pos_iff.2 (List.mem_flatMap.2 ⟨f, hf, hkey⟩)).ne'

omit [Arithmetic F] in
/-- A call is counted under its port, for its class and in all. -/
theorem mem_countedUnder {f : Fact F} {key : Text × Option Text} : key ∈ countedUnder f ↔
    key.1 = f.portCode ∧ (key.2 = f.shipClass ∨ key.2 = none) := by
  unfold countedUnder
  cases hc : f.shipClass with
  | none => simp [Prod.ext_iff]
  | some c => simp [Prod.ext_iff, ← and_or_left]

/-- What is observed of the calls. -/
theorem mem_callObservations {o : Observation F} : o ∈ callObservations accepted ↔
    ∃ port shipClass n, n = (accepted.flatMap countedUnder).count (port, shipClass) ∧ n ≠ 0 ∧
      o = ⟨some port, shipClass, none, Arithmetic.ofInt n, n⟩ := by
  rw [callObservations, List.mem_map]
  constructor
  · rintro ⟨⟨⟨port, shipClass⟩, n⟩, hmem, rfl⟩
    obtain ⟨rfl, hn⟩ := mem_callsByPortClass.1 (mem_sortBy.1 hmem)
    exact ⟨port, shipClass, _, rfl, hn, rfl⟩
  · rintro ⟨port, shipClass, n, hn, hpos, rfl⟩
    exact ⟨((port, shipClass), n), mem_sortBy.2 (mem_callsByPortClass.2 ⟨hn, hpos⟩), rfl⟩

/-- The counts of calls are of distinct segments. -/
theorem segmented_callObservations (accepted : List (Fact F)) :
    Segmented (callObservations accepted) := by
  constructor
  · have hkeys : ((sortBy (fun entry => (toLex (entry.1.1, strOf entry.1.2) : Text ×ₗ Text))
        (callsByPortClass accepted)).map Prod.fst).Nodup :=
      ((perm_sortBy _ _).map Prod.fst).nodup_iff.2 (Dict.nodup_tally _)
    have hsegment : (callObservations accepted).map Observation.segment =
        ((sortBy (fun entry => (toLex (entry.1.1, strOf entry.1.2) : Text ×ₗ Text))
          (callsByPortClass accepted)).map Prod.fst).map
            fun key => (some key.1, key.2, none) := by
      rw [callObservations, List.map_map, List.map_map]
      rfl
    rw [hsegment]
    refine hkeys.map fun key key' h => ?_
    simpa [Prod.ext_iff] using h
  · intro o ho
    obtain ⟨_, _, n, -, hn, rfl⟩ := mem_callObservations.1 ho
    exact hn

omit [Arithmetic F] in
/-- An entry gathered has a value. -/
theorem gather_ne_nil {κ γ : Type} [DecidableEq κ] {ps : List (κ × γ)} :
    ∀ entry ∈ Dict.gather ps, entry.2 ≠ [] := fun _ h => (Dict.mem_gather.1 h).2

/-- **Every figure counts something, segment by segment.** -/
theorem segmented_of_computed
    (h : computeKpiObservations facts gateScans bookings = .ok observations) :
    ∀ figure ∈ observations, Segmented figure.2 := by
  obtain ⟨_, _, _, _, _, _, _, h₁, h₂, h₃, h₄, -, h₆, h₇, rfl⟩ := computeKpiObservations_eq_ok h
  have hquantiles : [some p50, some p90].Nodup := by decide
  have hmedian : [some p50].Nodup := List.nodup_singleton _
  have hnone : [none (α := Text)].Nodup := List.nodup_singleton _
  have hgather : ∀ {β : Type} {ps : List (Option Text × β)} {percentiles : List (Option Text)}
      {figure : Option Text → List β → Except PyError F} {l : List (Observation F)},
      percentiles.Nodup → portObservations percentiles figure (Dict.gather ps) = .ok l →
      Segmented l := fun hp h =>
    segmented_portObservations (Dict.nodup_gather _) gather_ne_nil hp h
  simp only [List.forall_mem_cons]
  exact ⟨segmented_callObservations _, hgather hquantiles h₁, hgather hquantiles h₂, hgather hnone h₃,
    hgather hmedian h₄, hgather hmedian h₆, hgather hnone h₇, nofun⟩

end PortStatistics

end Lakehouse

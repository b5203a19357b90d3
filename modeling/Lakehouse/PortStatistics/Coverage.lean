import Lakehouse.PortStatistics.Turnaround
import Lakehouse.PortStatistics.Values
/-!
# Coverage

The rows of a run neither invent nor drop a figure of a discovered port:
every figure has a row at every port, a row has a value or a note, and each
value is that of an observation. An observation without a port is dropped
where some port is discovered.
-/

namespace Lakehouse

namespace PortStatistics

open Arithmetic

variable {F : Type} {run : RunContext} {observations : Members (List (Observation F))}
  {ports : List (Option Text)} {definition : KpiDefinition} {port : Option Text} {r : ValueRow F}

/-! ## The rows of a figure at a port -/

/-- A figure with a known gap has a note in place of values. -/
theorem rowsAt_gap {gap : StatsGap} (h : definition.gap = some gap) :
    rowsAt run observations definition port = [noteRow run definition port (gapNote gap)] := by
  rw [rowsAt, h]

/-- A figure without observations has a note in place of values. -/
theorem rowsAt_none (h : definition.gap = none) (ho : observedAt observations definition port = []) :
    rowsAt run observations definition port = [noteRow run definition port noDataNote] := by
  rw [rowsAt, h]
  simp only
  rw [ho]

/-- Otherwise there is a row for each observation. -/
theorem rowsAt_some (h : definition.gap = none) (ho : observedAt observations definition port ≠ []) :
    rowsAt run observations definition port =
      (sortBy segmentKey (observedAt observations definition port)).map
        (observationRow run definition port) := by
  rw [rowsAt, h]
  cases hobserved : observedAt observations definition port with
  | nil => exact absurd hobserved ho
  | cons o l => rfl

/-- **A row is a note or an observation.** -/
theorem mem_rowsAt (hr : r ∈ rowsAt run observations definition port) :
    (∃ note, r = noteRow run definition port note) ∨
      ∃ o ∈ observedAt observations definition port, r = observationRow run definition port o := by
  cases hgap : definition.gap with
  | some gap =>
    rw [rowsAt_gap hgap, List.mem_singleton] at hr
    exact Or.inl ⟨_, hr⟩
  | none =>
    by_cases ho : observedAt observations definition port = []
    · rw [rowsAt_none hgap ho, List.mem_singleton] at hr
      exact Or.inl ⟨_, hr⟩
    · rw [rowsAt_some hgap ho] at hr
      obtain ⟨o, ho, rfl⟩ := List.mem_map.1 hr
      exact Or.inr ⟨o, mem_sortBy.1 ho, rfl⟩

/-- **Every figure has a row at every port.** -/
theorem rowsAt_ne_nil (run : RunContext) (observations : Members (List (Observation F)))
    (definition : KpiDefinition) (port : Option Text) :
    rowsAt run observations definition port ≠ [] := by
  cases hgap : definition.gap with
  | some gap => simp [rowsAt_gap hgap]
  | none =>
    by_cases ho : observedAt observations definition port = []
    · simp [rowsAt_none hgap ho]
    · rw [rowsAt_some hgap ho, ne_eq, List.map_eq_nil_iff]
      intro hnil
      have hlength := congrArg List.length hnil
      rw [length_sortBy, List.length_nil, List.length_eq_zero_iff] at hlength
      exact ho hlength

/-- Every row names its figure and its port. -/
theorem names_of_mem_rowsAt (hr : r ∈ rowsAt run observations definition port) :
    r.kpiId = definition.kpiId ∧ r.portCode = port := by
  obtain ⟨note, rfl⟩ | ⟨o, -, rfl⟩ := mem_rowsAt hr
  all_goals exact ⟨rfl, rfl⟩

/-- Where one element alone contributes, the list is what it contributes. -/
theorem flatMap_eq_of_unique {α β : Type} {l : List α} {f : α → List β} {a : α} (hl : l.Nodup)
    (ha : a ∈ l) (hf : ∀ b ∈ l, b ≠ a → f b = []) : l.flatMap f = f a := by
  obtain ⟨before, after, rfl⟩ := List.append_of_mem ha
  have hnil : ∀ m : List α, (∀ b ∈ m, b ∈ before ++ a :: after ∧ b ≠ a) → m.flatMap f = [] :=
    fun m hm => List.flatMap_eq_nil_iff.2 fun b hb => hf b (hm b hb).1 (hm b hb).2
  rw [List.nodup_append, List.nodup_cons] at hl
  obtain ⟨-, ⟨hafter, -⟩, hbefore⟩ := hl
  rw [List.flatMap_append, List.flatMap_cons, hnil before, hnil after, List.nil_append,
    List.append_nil]
  · exact fun b hb => ⟨by simp [hb], fun h => hafter (h ▸ hb)⟩
  · exact fun b hb => ⟨by simp [hb], fun h => hbefore b hb a List.mem_cons_self h⟩

/-- **The rows of a figure at a port**, among all rows. -/
theorem filter_emitValueRows (hports : ports.Nodup) (hd : definition ∈ kpiDefinitions)
    (hp : port ∈ ports) : ((emitValueRows run observations ports).filter fun r =>
      r.kpiId = definition.kpiId ∧ r.portCode = port) = rowsAt run observations definition port := by
  have hnodup : kpiDefinitions.Nodup := nodup_kpiIds.of_map
  have hrows : ∀ d ∈ kpiDefinitions, ∀ p : Option Text, ¬(d = definition ∧ p = port) →
      ((rowsAt run observations d p).filter fun r =>
        r.kpiId = definition.kpiId ∧ r.portCode = port) = [] := by
    intro d hdmem p hne
    refine List.filter_eq_nil_iff.2 fun r hr hmatch => hne ?_
    obtain ⟨hkpi, hport⟩ := names_of_mem_rowsAt hr
    obtain ⟨hkpi', hport'⟩ := of_decide_eq_true hmatch
    exact ⟨List.inj_on_of_nodup_map nodup_kpiIds hdmem hd (hkpi.symm.trans hkpi'),
      hport.symm.trans hport'⟩
  rw [emitValueRows, List.filter_flatMap, flatMap_eq_of_unique hnodup hd, List.filter_flatMap,
    flatMap_eq_of_unique hports hp]
  · exact List.filter_eq_self.2 fun r hr => decide_eq_true (names_of_mem_rowsAt hr)
  · exact fun p _ hne => hrows definition hd p fun h => hne h.2
  · intro d hdmem hne
    rw [List.filter_flatMap]
    exact List.flatMap_eq_nil_iff.2 fun p _ => hrows d hdmem p fun h => hne h.1

/-- The rows emitted are those of some figure at some port. -/
theorem mem_emitValueRows : r ∈ emitValueRows run observations ports ↔
    ∃ d ∈ kpiDefinitions, ∃ p ∈ ports, r ∈ rowsAt run observations d p := by
  simp only [emitValueRows, List.mem_flatMap]

/-! ## No fabricated figures -/

/-- **A row shows an observation of a figure.** -/
structure Shows (kpiId : Text) (o : Observation F) (r : ValueRow F) : Prop where
  kpiId : r.kpiId = kpiId
  portCode : r.portCode = o.portCode
  shipClass : r.shipClass = o.shipClass
  percentile : r.percentile = o.percentile
  value : r.value = some o.value
  nObservations : r.nObservations = o.nObservations

/-- The observations shown at a port are those with its code. -/
theorem mem_observedAt {o : Observation F} : o ∈ observedAt observations definition port ↔
    (∃ l, observations.get definition.kpiId = some l ∧ o ∈ l) ∧ o.portCode = port := by
  rw [observedAt, List.mem_filter, decide_eq_true_eq]
  cases observations.get definition.kpiId <;> simp

/-- An observation's row shows it. -/
theorem shows_observationRow {o : Observation F} (h : o.portCode = port) :
    Shows definition.kpiId o (observationRow run definition port o) :=
  ⟨rfl, h.symm, rfl, rfl, rfl, rfl⟩

section

variable {F : Type} [Arithmetic F] {facts : List (Fact F)} {gateScans : List GateScan}
  {bookings : List (Booking F)} {observations : Members (List (Observation F))}

/-- **No figure is fabricated and none is missing.** -/
theorem emitValueRows_sound (run : RunContext)
    (h : computeKpiObservations facts gateScans bookings = .ok observations) :
    (∀ d ∈ kpiDefinitions, ∀ p ∈ discoverPorts facts gateScans bookings,
      ∃ r ∈ emitValueRows run observations (discoverPorts facts gateScans bookings),
        r.kpiId = d.kpiId ∧ r.portCode = p) ∧
    (∀ r ∈ emitValueRows run observations (discoverPorts facts gateScans bookings),
      (r.value = none ↔ r.coverageNote ≠ none) ∧ (r.coverageNote ≠ none ↔ r.nObservations = 0) ∧
      (r.value ≠ none → ∃ l, observations.get r.kpiId = some l ∧ ∃ o ∈ l, Shows r.kpiId o r)) ∧
    ∀ d ∈ kpiDefinitions, ∀ gap, d.gap = some gap →
      ∀ p ∈ discoverPorts facts gateScans bookings, ∃ r,
        (emitValueRows run observations (discoverPorts facts gateScans bookings)).filter (fun r =>
          r.kpiId = d.kpiId ∧ r.portCode = p) = [r] ∧
        r.value = none ∧ ∃ note, r.coverageNote = some note ∧ gap.gapId <+: note := by
  refine ⟨?_, ?_, ?_⟩
  · intro d hd p hp
    obtain ⟨r, hr⟩ := List.exists_mem_of_ne_nil _ (rowsAt_ne_nil run observations d p)
    exact ⟨r, mem_emitValueRows.2 ⟨d, hd, p, hp, hr⟩, names_of_mem_rowsAt hr⟩
  · intro r hr
    obtain ⟨d, hd, p, hp, hr⟩ := mem_emitValueRows.1 hr
    obtain ⟨note, rfl⟩ | ⟨o, ho, rfl⟩ := mem_rowsAt hr
    · simp [noteRow, baseRow]
    · obtain ⟨⟨l, hl, ho⟩, hport⟩ := mem_observedAt.1 ho
      have hpos : o.nObservations ≠ 0 :=
        (segmented_of_computed h _ (Members.mem_of_get hl)).pos o ho
      refine ⟨by simp [observationRow, baseRow], by simpa [observationRow, baseRow] using hpos,
        fun _ => ⟨l, hl, o, ho, shows_observationRow hport⟩⟩
  · intro d hd gap hgap p hp
    rw [filter_emitValueRows nodup_discoverPorts hd hp, rowsAt_gap hgap]
    refine ⟨_, rfl, rfl, _, rfl, ?_⟩
    rw [gapNote, List.append_assoc]
    exact List.prefix_append _ _

/-! ## Where observations are made -/

/-- **Where observations are made**: at the port of a fact, of a scan that
ends a visit, or of a booking. -/
def Located (facts : List (Fact F)) (gateScans : List GateScan) (bookings : List (Booking F))
    (port : Option Text) : Prop :=
  (∃ f ∈ facts, some f.portCode = port) ∨ (∃ visit ∈ visits gateScans, visit.2.portCode = port) ∨
    ∃ b ∈ bookings, b.portCode = port

/-- A booking's counters stand under its port. -/
theorem slotCounters_portCode {slots : List (Option (Option Text × F × F))}
    {port : Option Text} {counters : F × F} (h : collect (bookings.map slotCounters) = .ok slots)
    (hmem : (port, counters) ∈ slots.reduceOption) : ∃ b ∈ bookings, b.portCode = port := by
  rw [List.reduceOption_mem_iff] at hmem
  obtain ⟨b, hb, hslot⟩ := List.mem_map.1 (mem_of_collect h hmem)
  refine ⟨b, hb, ?_⟩
  unfold slotCounters at hslot
  split at hslot
  · obtain ⟨-, hslot⟩ := guard_eq_ok.1 hslot
    cases hslot
    rfl
  · cases hslot

/-- A visit ends with a scan of the list. -/
theorem mem_of_mem_visits {visit : GateScan × GateScan} (h : visit ∈ visits gateScans) :
    visit.2 ∈ gateScans := by
  obtain ⟨key, hkey⟩ := mem_visits.1 h
  have hzip := List.of_mem_zip (List.mem_filter.1 hkey).1
  exact (List.mem_filter.1 (mem_sortBy.1 (List.mem_of_mem_tail hzip.2))).1

omit [Arithmetic F] in
/-- An observation's port is one that a value was gathered under. -/
theorem mem_dict_of_observed {β : Type} {percentiles : List (Option Text)}
    {figure : Option Text → List β → Except PyError F} {ps : List (Option Text × β)}
    {l : List (Observation F)} {o : Observation F}
    (h : portObservations percentiles figure (Dict.gather ps) = .ok l) (ho : o ∈ l) :
    ∃ x, (o.portCode, x) ∈ ps := by
  obtain ⟨entry, hentry, _, _, hobs⟩ := mem_portObservations h ho
  have hport : o.portCode = entry.1 := congrArg Prod.fst hobs.segment
  rw [hport]
  exact Dict.mem_keys_gather.1 (List.mem_map_of_mem hentry)

/-- A count is of the accepted calls of a port, or of one of their classes. -/
theorem exists_fact_of_observed {accepted : List (Fact F)} {o : Observation F}
    (ho : o ∈ callObservations accepted) : ∃ f ∈ accepted, o.portCode = some f.portCode ∧
      (o.shipClass = none ∨ o.shipClass = f.shipClass) ∧ o.percentile = none := by
  obtain ⟨port, shipClass, n, hn, hpos, rfl⟩ := mem_callObservations.1 ho
  rw [hn] at hpos
  obtain ⟨f, hf, hkey⟩ := List.mem_flatMap.1 (List.count_pos_iff.1 (Nat.pos_of_ne_zero hpos))
  refine ⟨f, hf, ?_⟩
  unfold countedUnder at hkey
  obtain hkey | hkey := List.mem_cons.1 hkey
  · cases hkey
    exact ⟨rfl, Or.inr rfl, rfl⟩
  · split_ifs at hkey
    · cases hkey
    · cases List.mem_singleton.1 hkey
      exact ⟨rfl, Or.inl rfl, rfl⟩

/-- **Every observation is of a port that the inputs name.** -/
theorem located_of_computed
    (h : computeKpiObservations facts gateScans bookings = .ok observations) :
    ∀ figure ∈ observations, ∀ o ∈ figure.2, Located facts gateScans bookings o.portCode := by
  obtain ⟨_, _, _, _, slots, _, _, h₁, h₂, h₃, h₄, hslots, h₆, h₇, rfl⟩ :=
    computeKpiObservations_eq_ok h
  have hfact : ∀ {f}, f ∈ facts.filter Fact.isAccepted →
      Located facts gateScans bookings (some f.portCode) := fun hf =>
    Or.inl ⟨_, (List.mem_filter.1 hf).1, rfl⟩
  have hby : ∀ {measure : Fact F → Option F} {port : Option Text} {x : F},
      (port, x) ∈ ((facts.filter Fact.isAccepted).filterMap fun f =>
        (measure f).map fun x => (some f.portCode, x)) → Located facts gateScans bookings port := by
    intro measure port x hmem
    obtain ⟨f, hf, hx⟩ := List.mem_filterMap.1 hmem
    obtain ⟨_, -, hx⟩ := Option.map_eq_some_iff.1 hx
    cases hx
    exact hfact hf
  simp only [List.forall_mem_cons]
  refine ⟨fun o ho => ?_, fun o ho => ?_, fun o ho => ?_, fun o ho => ?_, fun o ho => ?_,
    fun o ho => ?_, fun o ho => ?_, nofun⟩
  · obtain ⟨f, hf, hport, -⟩ := exists_fact_of_observed ho
    rw [hport]
    exact hfact hf
  · obtain ⟨x, hx⟩ := mem_dict_of_observed h₁ ho
    exact hby hx
  · obtain ⟨x, hx⟩ := mem_dict_of_observed h₂ ho
    exact hby hx
  · obtain ⟨x, hx⟩ := mem_dict_of_observed h₃ ho
    exact hby hx
  · obtain ⟨x, hx⟩ := mem_dict_of_observed h₄ ho
    obtain ⟨visit, hvisit, hx⟩ := List.mem_map.1 hx
    have hmem := mem_gatePairs.1 (List.mem_filter.1 hvisit).1
    exact Or.inr (Or.inl ⟨visit, hmem, congrArg Prod.fst hx⟩)
  · obtain ⟨x, hx⟩ := mem_dict_of_observed h₆ ho
    obtain ⟨b, hb, hx⟩ := List.mem_map.1 hx
    exact Or.inr (Or.inr ⟨b, hb, congrArg Prod.fst hx⟩)
  · obtain ⟨x, hx⟩ := mem_dict_of_observed h₇ ho
    exact Or.inr (Or.inr (slotCounters_portCode hslots hx))

/-- Every figure with observations is one without a gap. -/
theorem definition_of_computed {kpiId : Text} {l : List (Observation F)}
    (h : computeKpiObservations facts gateScans bookings = .ok observations)
    (hl : observations.get kpiId = some l) :
    ∃ d ∈ kpiDefinitions, d.gap = none ∧ d.kpiId = kpiId := by
  obtain ⟨_, _, _, _, _, _, _, -, -, -, -, -, -, -, rfl⟩ := computeKpiObservations_eq_ok h
  have hmem := Members.mem_of_get hl
  simp only [List.mem_cons, Prod.mk.injEq, List.not_mem_nil, or_false] at hmem
  obtain ⟨rfl, -⟩ | ⟨rfl, -⟩ | ⟨rfl, -⟩ | ⟨rfl, -⟩ | ⟨rfl, -⟩ | ⟨rfl, -⟩ | ⟨rfl, -⟩ := hmem
  · exact ⟨vesselCalls, by simp [kpiDefinitions], rfl, rfl⟩
  · exact ⟨vesselTurnaroundHours, by simp [kpiDefinitions], rfl, rfl⟩
  · exact ⟨waitingTimeHours, by simp [kpiDefinitions], rfl, rfl⟩
  · exact ⟨throughputTonnes, by simp [kpiDefinitions], rfl, rfl⟩
  · exact ⟨truckGateTurnaroundMinutes, by simp [kpiDefinitions], rfl, rfl⟩
  · exact ⟨bookingLeadTimeHours, by simp [kpiDefinitions], rfl, rfl⟩
  · exact ⟨slotUtilisationPct, by simp [kpiDefinitions], rfl, rfl⟩

/-! ## Nothing is omitted -/

instance [DecidableEq F] (kpiId : Text) (o : Observation F) (r : ValueRow F) :
    Decidable (Shows kpiId o r) :=
  decidable_of_iff (r.kpiId = kpiId ∧ r.portCode = o.portCode ∧ r.shipClass = o.shipClass ∧
      r.percentile = o.percentile ∧ r.value = some o.value ∧ r.nObservations = o.nObservations)
    ⟨fun ⟨h₁, h₂, h₃, h₄, h₅, h₆⟩ => ⟨h₁, h₂, h₃, h₄, h₅, h₆⟩,
      fun ⟨h₁, h₂, h₃, h₄, h₅, h₆⟩ => ⟨h₁, h₂, h₃, h₄, h₅, h₆⟩⟩

/-- An observation is in exactly one row. -/
def AppearsOnce [DecidableEq F] (rows : List (ValueRow F)) (kpiId : Text) (o : Observation F) :
    Prop := ∃ r, rows.filter (fun r => Shows kpiId o r) = [r]

/-- **An observation of a discovered port is in exactly one row.** -/
theorem appearsOnce [DecidableEq F] (run : RunContext) {kpiId : Text} {l : List (Observation F)}
    {o : Observation F} (h : computeKpiObservations facts gateScans bookings = .ok observations)
    (hports : ports.Nodup) (hl : observations.get kpiId = some l) (ho : o ∈ l)
    (hp : o.portCode ∈ ports) : AppearsOnce (emitValueRows run observations ports) kpiId o := by
  obtain ⟨d, hd, hgap, rfl⟩ := definition_of_computed h hl
  have hobserved : o ∈ observedAt observations d o.portCode := mem_observedAt.2 ⟨⟨l, hl, ho⟩, rfl⟩
  have hnodup : (observedAt observations d o.portCode).Nodup := by
    rw [observedAt, hl]
    exact ((segmented_of_computed h _ (Members.mem_of_get hl)).nodup.of_map).filter _
  have hrow : ∀ o' ∈ observedAt observations d o.portCode,
      (Shows d.kpiId o (observationRow run d o.portCode o') ↔ o' = o) := by
    intro o' ho'
    constructor
    · intro hs
      exact Observation.ext (mem_observedAt.1 ho').2 hs.shipClass hs.percentile
        (Option.some.inj hs.value) hs.nObservations
    · rintro rfl
      exact shows_observationRow rfl
  have hsplit : (emitValueRows run observations ports).filter (fun r => Shows d.kpiId o r) =
      (rowsAt run observations d o.portCode).filter fun r => Shows d.kpiId o r := by
    rw [← filter_emitValueRows hports hd hp, List.filter_filter]
    refine List.filter_congr fun r _ => ?_
    rw [Bool.eq_iff_iff, Bool.and_eq_true]
    simp only [decide_eq_true_eq]
    exact ⟨fun hs => ⟨hs, hs.kpiId, hs.portCode⟩, fun hs => hs.1⟩
  refine ⟨observationRow run d o.portCode o, ?_⟩
  rw [hsplit, rowsAt_some hgap (List.ne_nil_of_mem hobserved), List.filter_map]
  have hfilter : (sortBy segmentKey (observedAt observations d o.portCode)).filter
      ((fun r => decide (Shows d.kpiId o r)) ∘ observationRow run d o.portCode) = [o] := by
    have hsorted := (perm_sortBy segmentKey (observedAt observations d o.portCode)).nodup_iff.2 hnodup
    have hcongr : (sortBy segmentKey (observedAt observations d o.portCode)).filter
        ((fun r => decide (Shows d.kpiId o r)) ∘ observationRow run d o.portCode) =
          (sortBy segmentKey (observedAt observations d o.portCode)).filter (· == o) := by
      refine List.filter_congr fun o' ho' => ?_
      rw [Function.comp_apply, Bool.eq_iff_iff, decide_eq_true_eq, beq_iff_eq]
      exact hrow o' (mem_sortBy.1 ho')
    rw [hcongr, List.filter_beq, List.count_eq_one_of_mem hsorted (mem_sortBy.2 hobserved)]
    rfl
  rw [hfilter]
  rfl

/-- Everything that can be observed without a port is: a booking, and a visit
that ends at a scan without one. -/
theorem exists_observation_none [LawfulDurations F]
    (h : computeKpiObservations facts gateScans bookings = .ok observations)
    (hnone : (∃ visit ∈ visits gateScans, visit.2.portCode = none) ∨
      ∃ b ∈ bookings, b.portCode = none) :
    ∃ kpiId l, observations.get kpiId = some l ∧ ∃ o ∈ l, o.portCode = none := by
  obtain ⟨_, _, _, gates, _, leads, _, -, -, -, hgates, -, hleads, -, rfl⟩ :=
    computeKpiObservations_eq_ok h
  have hobserved : ∀ {β : Type} {figure : Option Text → List β → Except PyError F}
      {ps : List (Option Text × β)} {l : List (Observation F)} {x : β},
      portObservations [some p50] figure (Dict.gather ps) = .ok l → (none, x) ∈ ps →
        ∃ o ∈ l, o.portCode = none := by
    intro β figure ps l x hl hx
    obtain ⟨⟨_, values⟩, hentry, rfl⟩ := List.mem_map.1 (Dict.mem_keys_gather.2 ⟨x, hx⟩)
    obtain ⟨o, ho, hobs⟩ := exists_mem_portObservations hl hentry (List.mem_singleton.2 rfl)
    exact ⟨o, ho, congrArg Prod.fst hobs.segment⟩
  obtain ⟨visit, hvisit, hport⟩ | ⟨b, hb, hport⟩ := hnone
  · have hpair := mem_gatePairs.2 hvisit
    have hx : (none, (minutes visit : F)) ∈ ((gatePairs gateScans).filter fun pair =>
        le (ofInt 0) (minutes pair : F)).map fun pair => (pair.2.portCode, minutes pair) :=
      List.mem_map.2 ⟨visit, List.mem_filter.2 ⟨hpair, minutes_nonneg hpair⟩, by rw [hport]⟩
    exact ⟨truckGateTurnaroundMinutes.kpiId, gates, rfl, hobserved hgates hx⟩
  · have hx : (none, b.leadTimeHours) ∈ bookings.map fun b => (b.portCode, b.leadTimeHours) :=
      List.mem_map.2 ⟨b, hb, by rw [hport]⟩
    exact ⟨bookingLeadTimeHours.kpiId, leads, rfl, hobserved hleads hx⟩

/-- Where nothing is omitted and some port is known, everything observed has
one. -/
theorem ported_of_emitted [DecidableEq F] [LawfulDurations F] (run : RunContext)
    (h : computeKpiObservations facts gateScans bookings = .ok observations)
    (hall : ∀ kpiId l, observations.get kpiId = some l → ∀ o ∈ l, AppearsOnce
      (emitValueRows run observations (discoverPorts facts gateScans bookings)) kpiId o)
    (hports : portCodes facts gateScans bookings ≠ []) :
    (∀ visit ∈ visits gateScans, visit.2.portCode ≠ none) ∧ ∀ b ∈ bookings, b.portCode ≠ none := by
  by_contra hnone
  have hnone' : (∃ visit ∈ visits gateScans, visit.2.portCode = none) ∨
      ∃ b ∈ bookings, b.portCode = none := by
    by_contra hneither
    refine hnone ⟨fun visit hvisit hport => hneither (Or.inl ⟨visit, hvisit, hport⟩),
      fun b hb hport => hneither (Or.inr ⟨b, hb, hport⟩)⟩
  obtain ⟨kpiId, l, hl, o, ho, hport⟩ := exists_observation_none h hnone'
  obtain ⟨r, hr⟩ := hall kpiId l hl o ho
  obtain ⟨hmem, hshows⟩ := List.mem_filter.1 (hr ▸ List.mem_cons_self : r ∈ List.filter _ _)
  obtain ⟨d, -, p, hp, hrow⟩ := mem_emitValueRows.1 hmem
  have hpnone : p = none :=
    (names_of_mem_rowsAt hrow).2.symm.trans ((of_decide_eq_true hshows).portCode.trans hport)
  exact hports (none_mem_discoverPorts.1 (hpnone ▸ hp))

/-- **Nothing is omitted** exactly where nothing carries a port, or every
booking and every scan that ends a visit carries one. -/
theorem observations_emitted_iff [DecidableEq F] [LawfulDurations F] (run : RunContext)
    (h : computeKpiObservations facts gateScans bookings = .ok observations) :
    (∀ kpiId l, observations.get kpiId = some l → ∀ o ∈ l, AppearsOnce
        (emitValueRows run observations (discoverPorts facts gateScans bookings)) kpiId o) ↔
      portCodes facts gateScans bookings = [] ∨ (∀ visit ∈ visits gateScans,
        visit.2.portCode ≠ none) ∧ ∀ b ∈ bookings, b.portCode ≠ none := by
  constructor
  · intro hall
    by_cases hports : portCodes facts gateScans bookings = []
    · exact Or.inl hports
    · exact Or.inr (ported_of_emitted run h hall hports)
  · intro hports kpiId l hl o ho
    have hlocated := located_of_computed h _ (Members.mem_of_get hl) o ho
    refine appearsOnce run h nodup_discoverPorts hl ho ?_
    -- a port that is observed is one of the discovered
    have hsome : ∀ {p : Text}, o.portCode = some p → p ∈ portCodes facts gateScans bookings := by
      intro p hp
      rw [hp] at hlocated
      obtain ⟨f, hf, hfp⟩ | ⟨visit, hvisit, hport⟩ | ⟨b, hb, hport⟩ := hlocated
      · exact List.mem_append_left _ (List.mem_append_left _
          (List.mem_map.2 ⟨f, hf, Option.some.inj hfp⟩))
      · exact List.mem_append_left _ (List.mem_append_right _
          (List.mem_filterMap.2 ⟨visit.2, mem_of_mem_visits hvisit, hport⟩))
      · exact List.mem_append_right _ (List.mem_filterMap.2 ⟨b, hb, hport⟩)
    cases hp : o.portCode with
    | some p => exact mem_discoverPorts.2 (hsome hp)
    | none =>
      obtain hnil | ⟨hvisits, hbookings⟩ := hports
      · exact none_mem_discoverPorts.2 hnil
      · rw [hp] at hlocated
        obtain ⟨_, _, hf⟩ | ⟨visit, hvisit, hport⟩ | ⟨b, hb, hport⟩ := hlocated
        · cases hf
        · exact absurd hport (hvisits visit hvisit)
        · exact absurd hport (hbookings b hb)

end

/-! ## A call and a visit -/

/-- An accepted call of a tanker at Lagos. -/
def tankerCall : Fact Decimal where
  portCallId := lit "call-1"
  portCode := lit "NGLOS"
  vesselRefHashed := none
  shipClass := some (lit "Tanker")
  status := lit "ACCEPTED"
  arrivedAt := some 1769901600000000
  berthedAt := none
  departedAt := some 1769988000000000
  declaredTonnage := some (PyFloat.ofInt 500)
  sourceEventIdsJson := lit "[]"

/-- The scans of a visit of half an hour, at a port or at none. -/
def visitAt (port : Option Text) : List GateScan :=
  [{ gateScanAt "scan-1" .gateIn 0 with portCode := port },
    { gateScanAt "scan-2" .gateOut 1800000000 with portCode := port }]

def sampleRun : RunContext := ⟨lit "2026-01", lit "run-1", lit "platform_silver/events", 0, [], 0⟩

/-- The sample inputs give observations. -/
theorem exists_sampleObservations (port : Option Text) (hport : port ∈ [none, some (lit "NGLOS")]) :
    ∃ observations, computeKpiObservations [tankerCall] (visitAt port) [] = .ok observations := by
  have hok : (computeKpiObservations [tankerCall] (visitAt port) []).toOption.isSome = true := by
    simp only [List.mem_cons, List.not_mem_nil, or_false] at hport
    obtain rfl | rfl := hport
    · decide +kernel
    · decide +kernel
  obtain ⟨observations, h⟩ := Option.isSome_iff_exists.1 hok
  exact ⟨observations, toOption_eq_some.1 h⟩

/-- One call and one visit without a port. -/
theorem emitValueRows_sound_sample : ∃ observations,
    computeKpiObservations [tankerCall] (visitAt none) [] = .ok observations ∧
      ∀ r ∈ emitValueRows sampleRun observations (discoverPorts [tankerCall] (visitAt none) []),
        r.value = none ↔ r.coverageNote ≠ none := by
  obtain ⟨observations, h⟩ := exists_sampleObservations none (by simp)
  exact ⟨observations, h, fun r hr => ((emitValueRows_sound sampleRun h).2.1 r hr).1⟩

/-- One call and one visit of a port. -/
theorem observations_emitted_ported : ∃ observations,
    computeKpiObservations [tankerCall] (visitAt (some (lit "NGLOS"))) [] = .ok observations ∧
      ∀ kpiId l, observations.get kpiId = some l → ∀ o ∈ l, AppearsOnce (emitValueRows sampleRun
        observations (discoverPorts [tankerCall] (visitAt (some (lit "NGLOS"))) [])) kpiId o := by
  obtain ⟨observations, h⟩ := exists_sampleObservations (some (lit "NGLOS")) (by simp)
  refine ⟨observations, h, (observations_emitted_iff sampleRun h).2 (Or.inr ⟨?_, by simp⟩)⟩
  have hvisits : visits (visitAt (some (lit "NGLOS"))) = [((visitAt (some (lit "NGLOS"))).headD
      (gateScanAt "" .gateIn 0), (visitAt (some (lit "NGLOS"))).getLastD (gateScanAt "" .gateIn 0))] := by
    decide +kernel
  rw [hvisits, List.forall_mem_singleton]
  decide

/-- **A visit at no port** is dropped beside a call at Lagos. -/
theorem observations_omitted_unported : ∃ observations,
    computeKpiObservations [tankerCall] (visitAt none) [] = .ok observations ∧
      ¬∀ kpiId l, observations.get kpiId = some l → ∀ o ∈ l, AppearsOnce (emitValueRows sampleRun
        observations (discoverPorts [tankerCall] (visitAt none) [])) kpiId o := by
  obtain ⟨observations, h⟩ := exists_sampleObservations none (by simp)
  refine ⟨observations, h, fun hall => ?_⟩
  obtain ⟨hvisits, -⟩ := ported_of_emitted sampleRun h hall (by decide)
  refine hvisits ((visitAt none).headD (gateScanAt "" .gateIn 0),
    (visitAt none).getLastD (gateScanAt "" .gateIn 0)) ?_ rfl
  decide +kernel

end PortStatistics

end Lakehouse

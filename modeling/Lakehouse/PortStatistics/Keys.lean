import Lakehouse.PortStatistics.Conservation
import Lakehouse.PortStatistics.Coverage
/-!
# Value keys

A row is stored under the digest of its run, figure, period, port, class
and percentile, joined by slashes, with `None` written for what is absent.
Two rows of a run share a key exactly where a producer's class reads like
an absent one, or a class and a port code divide differently at a slash.
-/

namespace Lakehouse

namespace PortStatistics

open Ingest

/-! ## The records of a period -/

section Records

variable {F : Type} [PyFloat F] {L : Library} {events : List (Row F)} {event : Row F}
  {facts : List (Fact F)} {start stop : ℤ} {portCallId : Text} {call : CallEvent F}

/-- The port of a call is a UN/LOCODE. -/
theorem isUnlocode_of_callEvent (h : callEvent L event = .ok (some (portCallId, call))) :
    isUnlocode call.portCode = true := by
  obtain ⟨e, -, h⟩ := bind_eq_ok.1 h
  split_ifs at h with htype
  · cases h
  · split at h
    · obtain ⟨-, h⟩ := guard_eq_ok.1 h
      split at h
      · obtain ⟨hport, h⟩ := guard_eq_ok.1 h
        split at h
        · obtain ⟨-, h⟩ := guard_eq_ok.1 h
          cases h
          simpa using hport
        · cases h
      · cases h
    · cases h

/-- A further event of a call leaves its port. -/
theorem portCode_of_joinCall {entry : Option (CallEntry F)} {entry' : CallEntry F}
    (h : joinCall L entry call = .ok entry') :
    entry'.portCode = (entry.getD (.initial call)).portCode := by
  obtain ⟨-, h⟩ := guard_eq_ok.1 h
  obtain ⟨_, -, h⟩ := bind_eq_ok.1 h
  obtain ⟨_, -, h⟩ := bind_eq_ok.1 h
  obtain ⟨_, -, h⟩ := bind_eq_ok.1 h
  obtain ⟨_, -, h⟩ := bind_eq_ok.1 h
  obtain ⟨_, -, h⟩ := bind_eq_ok.1 h
  obtain ⟨_, -, h⟩ := bind_eq_ok.1 h
  cases h
  unfold CallEntry.advance
  split_ifs
  · rfl
  · rfl

/-- **The port of a fact is a UN/LOCODE.** -/
theorem isUnlocode_of_assembled (h : assemblePortCallFacts L events start stop = .ok facts) :
    ∀ f ∈ facts, isUnlocode f.portCode = true := by
  obtain ⟨calls, hcalls, h⟩ := bind_eq_ok.1 h
  intro f hf
  obtain ⟨⟨key, entry⟩, hc, hfact⟩ := List.mem_map.1 (mem_of_collect h hf)
  have hport : f.portCode = entry.portCode := by
    obtain ⟨_, -, hfact⟩ := bind_eq_ok.1 hfact
    obtain ⟨_, -, hfact⟩ := bind_eq_ok.1 hfact
    cases hfact
    rfl
  have hget : calls.get key = some entry :=
    (Members.get_eq_some (groupPass_distinct Members.distinct_nil hcalls)).2
      (mem_sortBy.1 (List.mem_filter.1 hc).1)
  have hfold := groupPass_get hcalls key
  rw [hget] at hfold
  have hall : ∀ call ∈ entriesOf (callEvent L) events key, isUnlocode call.portCode = true := by
    intro call hcall
    obtain ⟨event, -, hdecode⟩ := exists_of_mem_entriesOf hcall
    exact isUnlocode_of_callEvent hdecode
  rw [hport]
  refine foldGroup_induct (P := fun done b => (∀ call ∈ done, isUnlocode call.portCode = true) →
    ∀ entry, b = some entry → isUnlocode entry.portCode = true) ?_ ?_ hfold hall entry rfl
  · rintro - _ ⟨⟩
  · rintro done b call entry' ih hjoin hdone _ ⟨⟩
    rw [portCode_of_joinCall hjoin]
    cases b with
    | none => exact hdone call (by simp)
    | some entry => exact ih (fun c hc => hdone c (List.mem_append_left _ hc)) entry rfl

/-- A UN/LOCODE has no slash. -/
theorem slash_notMem_of_isUnlocode {t : Text} (h : isUnlocode t = true) : 0x2F ∉ t := by
  intro hslash
  rw [isUnlocode, Bool.and_eq_true, Bool.and_eq_true] at h
  obtain ⟨⟨-, hhead⟩, htail⟩ := h
  rw [← List.take_append_drop 2 t, List.mem_append] at hslash
  obtain hslash | hslash := hslash
  · exact absurd (List.all_eq_true.1 hhead _ hslash) (by decide)
  · exact absurd (List.all_eq_true.1 htail _ hslash) (by decide)

end Records

/-! ## Slashes -/

/-- Where a text is cut at a slash, and its first part has none. -/
theorem append_slash_eq {a b q x : Text} (ha : 0x2F ∉ a) (h : a ++ 0x2F :: b = q ++ 0x2F :: x) :
    q = a ∧ b = x ∨ ∃ d, q = a ++ 0x2F :: d ∧ b = d ++ 0x2F :: x := by
  obtain ⟨d, hq, hb⟩ | ⟨d, rfl, hx⟩ := List.append_eq_append_iff.1 h
  · cases d with
    | nil =>
      rw [List.append_nil] at hq
      exact Or.inl ⟨hq, (List.cons.inj hb).2⟩
    | cons c d =>
      obtain ⟨rfl, rfl⟩ := List.cons.inj hb
      exact Or.inr ⟨d, hq, rfl⟩
  · cases d with
    | nil =>
      rw [List.append_nil]
      exact Or.inl ⟨rfl, (List.cons.inj hx).2.symm⟩
    | cons c d =>
      obtain ⟨rfl, -⟩ := List.cons.inj hx
      exact absurd (by simp) ha

/-! ## The rows of a run -/

section Rows

variable {F : Type} [Arithmetic F] {facts : List (Fact F)} {gateScans : List GateScan}
  {bookings : List (Booking F)} {observations : Members (List (Observation F))} {run : RunContext}
  {r r' : ValueRow F}

/-- What tells the rows of a run apart. -/
def ValueRow.identity (r : ValueRow F) : Text × Option Text × Option Text × Option Text :=
  (r.kpiId, r.portCode, r.shipClass, r.percentile)

omit [Arithmetic F] in
/-- The identity of a row is its figure, port, class and percentile. -/
theorem ValueRow.identity_eq {i : Text × Option Text × Option Text × Option Text} :
    r.identity = i ↔ r.kpiId = i.1 ∧ r.portCode = i.2.1 ∧ r.shipClass = i.2.2.1 ∧
      r.percentile = i.2.2.2 := by
  simp [ValueRow.identity, Prod.ext_iff]

omit [Arithmetic F] in
/-- The material of a key, part by part. -/
theorem valueRowMaterial_eq (r : ValueRow F) : valueRowMaterial r = r.runId ++ 0x2F :: (r.kpiId ++
    0x2F :: (r.period ++ 0x2F :: ((strOf r.portCode ++ 0x2F :: strOf r.shipClass) ++
      0x2F :: strOf r.percentile))) := by
  simp [valueRowMaterial, Text.join, lit]

/-- **The rows of a figure at a port are of distinct identities.** -/
theorem nodup_identity_rowsAt
    (h : computeKpiObservations facts gateScans bookings = .ok observations)
    (d : KpiDefinition) (p : Option Text) :
    ((rowsAt run observations d p).map ValueRow.identity).Nodup := by
  cases hgap : d.gap with
  | some gap =>
    rw [rowsAt_gap hgap]
    exact List.nodup_singleton _
  | none =>
    by_cases ho : observedAt observations d p = []
    · rw [rowsAt_none hgap ho]
      exact List.nodup_singleton _
    · have hsegments : ((observedAt observations d p).map Observation.segment).Nodup := by
        cases hl : observations.get d.kpiId with
        | none => simp [observedAt, hl]
        | some l =>
          rw [observedAt, hl]
          exact (segmented_of_computed h _ (Members.mem_of_get hl)).nodup.sublist
            (List.filter_sublist.map _)
      have hsorted := ((perm_sortBy segmentKey (observedAt observations d p)).map
        Observation.segment).nodup_iff.2 hsegments
      rw [rowsAt_some hgap ho, List.map_map]
      refine hsorted.of_map.map_on fun o ho o' ho' hsame => ?_
      refine List.inj_on_of_nodup_map hsorted ho ho' ?_
      have hport := (mem_observedAt.1 (mem_sortBy.1 ho)).2.trans
        (mem_observedAt.1 (mem_sortBy.1 ho')).2.symm
      have hsegment : (o.shipClass, o.percentile) = (o'.shipClass, o'.percentile) :=
        congrArg (fun i : Text × Option Text × Option Text × Option Text => i.2.2) hsame
      exact Prod.ext hport hsegment

/-- **The rows of a run differ** in what tells them apart. -/
theorem nodup_identity (h : computeKpiObservations facts gateScans bookings = .ok observations)
    {ports : List (Option Text)} (hports : ports.Nodup) :
    ((emitValueRows run observations ports).map ValueRow.identity).Nodup := by
  have hidentity : ∀ {d p i}, i ∈ (rowsAt run observations d p).map ValueRow.identity →
      i.1 = d.kpiId ∧ i.2.1 = p := by
    intro d p i hi
    obtain ⟨r, hr, rfl⟩ := List.mem_map.1 hi
    exact names_of_mem_rowsAt hr
  rw [emitValueRows, List.map_flatMap, List.nodup_flatMap]
  refine ⟨fun d _ => ?_, (List.pairwise_map.1 nodup_kpiIds).imp fun hne => ?_⟩
  · rw [List.map_flatMap, List.nodup_flatMap]
    refine ⟨fun p _ => nodup_identity_rowsAt h d p, hports.imp fun hne => ?_⟩
    exact List.disjoint_left.2 fun i hi hi' =>
      hne ((hidentity hi).2.symm.trans (hidentity hi').2)
  · rw [Function.onFun_apply, List.disjoint_left]
    intro i hi hi'
    rw [List.map_flatMap] at hi hi'
    obtain ⟨_, _, hi⟩ := List.mem_flatMap.1 hi
    obtain ⟨_, _, hi'⟩ := List.mem_flatMap.1 hi'
    exact hne ((hidentity hi).1.symm.trans (hidentity hi').1)

/-- The percentiles of the figures, and the one figure with classes. -/
theorem segments_of_computed (h : computeKpiObservations facts gateScans bookings = .ok observations) :
    ∀ figure ∈ observations, ∀ o ∈ figure.2, o.percentile ∈ [none, some p50, some p90] ∧
      ∀ c, o.shipClass = some c → o ∈ callObservations (facts.filter Fact.isAccepted) := by
  obtain ⟨_, _, _, _, _, _, _, h₁, h₂, h₃, h₄, -, h₆, h₇, rfl⟩ := computeKpiObservations_eq_ok h
  have hplain : ∀ {β : Type} {percentiles : List (Option Text)}
      {figure : Option Text → List β → Except PyError F} {dict : Dict (Option Text) (List β)}
      {l : List (Observation F)} {P : Observation F → Prop},
      portObservations percentiles figure dict = .ok l →
      percentiles ⊆ [none, some p50, some p90] → ∀ o ∈ l,
      o.percentile ∈ [none, some p50, some p90] ∧ ∀ c, o.shipClass = some c → P o := by
    intro β percentiles figure dict l P hl hsub o ho
    obtain ⟨_, -, percentile, hpercentile, hobs⟩ := mem_portObservations hl ho
    have hclass : o.shipClass = none := congrArg (fun s => s.2.1) hobs.segment
    have hp : o.percentile = percentile := congrArg (fun s => s.2.2) hobs.segment
    refine ⟨hp ▸ hsub hpercentile, fun c hc => ?_⟩
    rw [hclass] at hc
    cases hc
  simp only [List.forall_mem_cons]
  refine ⟨fun o ho => ?_, hplain h₁ (by simp), hplain h₂ (by simp), hplain h₃ (by simp),
    hplain h₄ (by simp), hplain h₆ (by simp), hplain h₇ (by simp), nofun⟩
  obtain ⟨_, _, -, -, hp⟩ := exists_fact_of_observed ho
  rw [hp]
  exact ⟨by simp, fun c _ => ho⟩

/-- **What a class and a percentile of a row may be.** -/
theorem segment_of_mem (h : computeKpiObservations facts gateScans bookings = .ok observations)
    {ports : List (Option Text)} (hr : r ∈ emitValueRows run observations ports) :
    r.percentile ∈ [none, some p50, some p90] ∧ ∀ c, r.shipClass = some c → r.percentile = none ∧
      ∃ f ∈ facts, f.isAccepted = true ∧ f.shipClass = some c ∧ r.portCode = some f.portCode := by
  obtain ⟨d, -, p, -, hr⟩ := mem_emitValueRows.1 hr
  obtain ⟨note, rfl⟩ | ⟨o, ho, rfl⟩ := mem_rowsAt hr
  · exact ⟨by simp [noteRow, baseRow], nofun⟩
  · obtain ⟨⟨l, hl, ho⟩, hport⟩ := mem_observedAt.1 ho
    obtain ⟨hp, hclass⟩ := segments_of_computed h _ (Members.mem_of_get hl) o ho
    refine ⟨hp, fun c hc => ?_⟩
    obtain ⟨f, hf, hfport, hfclass, hnone⟩ := exists_fact_of_observed (hclass c hc)
    have hoc : o.shipClass = some c := hc
    rw [hoc] at hfclass
    obtain ⟨hf, haccepted⟩ := List.mem_filter.1 hf
    exact ⟨hnone, f, hf, haccepted, (hfclass.resolve_left (Option.some_ne_none _)).symm,
      hport.symm.trans hfport⟩

omit [Arithmetic F] in
/-- A key is the digest of its material's bytes. -/
theorem encoded_of_valueRowKey {L : Library} {k : Text} (h : valueRowKey L r = .ok k) :
    ∃ b, encodeUtf8 (valueRowMaterial r) = .ok b ∧ L.sha256 b = k := by
  unfold valueRowKey at h
  cases hb : encodeUtf8 (valueRowMaterial r) with
  | error e =>
    rw [hb] at h
    cases h
  | ok b =>
    rw [hb] at h
    exact ⟨b, rfl, Except.ok.inj h⟩

omit [Arithmetic F] in
/-- Under a digest without collisions, keys differ as their texts do. -/
theorem valueRowKey_inj {L : Library} (hsha : Function.Injective L.sha256) {k k' : Text}
    (h : valueRowKey L r = .ok k) (h' : valueRowKey L r' = .ok k') :
    k = k' ↔ valueRowMaterial r = valueRowMaterial r' := by
  obtain ⟨b, hb, rfl⟩ := encoded_of_valueRowKey h
  obtain ⟨b', hb', rfl⟩ := encoded_of_valueRowKey h'
  rw [hsha.eq_iff]
  constructor
  · rintro rfl
    exact Except.ok.inj ((decodeUtf8_encodeUtf8 hb).symm.trans (decodeUtf8_encodeUtf8 hb'))
  · intro hmaterial
    rw [hmaterial] at hb
    exact Except.ok.inj (hb.symm.trans hb')

omit [Arithmetic F] in
/-- **The keys differ** where no two rows have one text. -/
theorem nodup_keys_iff {L : Library} (hsha : Function.Injective L.sha256) {rows : List (ValueRow F)}
    {keys : List Text} (hrows : (rows.map ValueRow.identity).Nodup)
    (hkeys : collect (rows.map (valueRowKey L)) = .ok keys) :
    keys.Nodup ↔ ∀ r ∈ rows, ∀ r' ∈ rows, valueRowMaterial r = valueRowMaterial r' →
      r.identity = r'.identity := by
  have hkey : ∀ r ∈ rows, valueRowKey L r = .ok ((valueRowKey L r).toOption.getD []) := by
    intro r hr
    rw [collect_eq_ok, List.forall₂_map_left_iff] at hkeys
    obtain ⟨k, -, hk⟩ := exists_of_forall₂ hkeys.flip hr
    rw [hk]
    rfl
  rw [collect_map_eq_ok hkey] at hkeys
  obtain rfl := Except.ok.inj hkeys
  rw [List.nodup_map_iff_inj_on hrows.of_map]
  refine forall₂_congr fun r hr => forall₂_congr fun r' hr' => ?_
  rw [valueRowKey_inj hsha (hkey r hr) (hkey r' hr')]
  refine imp_congr_right fun _ => ⟨fun h => congrArg _ h, fun h => ?_⟩
  exact List.inj_on_of_nodup_map hrows hr hr' h

end Rows

/-! ## A period's run -/

section Rollup

variable {F : Type} [PyFloat F] [PyMath F]

/-- What a run computes of the events of a period. -/
structure Rollup (F : Type) where
  facts : List (Fact F)
  gateScans : List GateScan
  bookings : List (Booking F)
  observations : Members (List (Observation F))

/-- The computation of `_run_port_statistics`, before its rows are emitted. -/
def rollup (L : Library) (silverEvents : List (Row F)) (periodStart periodEnd : ℤ) :
    Except PyError (Rollup F) := do
  let facts ← assemblePortCallFacts L silverEvents periodStart periodEnd
  let gateScans ← extractGateScans silverEvents periodStart periodEnd
  let bookings ← extractBookings L silverEvents periodStart periodEnd
  let observations ← computeKpiObservations facts gateScans bookings
  return ⟨facts, gateScans, bookings, observations⟩

/-- The rows of a run. -/
def Rollup.rows (roll : Rollup F) (run : RunContext) : List (ValueRow F) :=
  emitValueRows run roll.observations (discoverPorts roll.facts roll.gateScans roll.bookings)

/-- The keys of the rows of a run. -/
def Rollup.keys (L : Library) (roll : Rollup F) (run : RunContext) : Except PyError (List Text) :=
  collect ((roll.rows run).map (valueRowKey L))

/-- **No class reads like an absent one**: of no accepted call is the class
`None`, or the rest of a port code, cut at a slash after the port of the
call, with `/None`. -/
def ClashFree (roll : Rollup F) : Prop :=
  ∀ f ∈ roll.facts, f.isAccepted = true → ∀ c, f.shipClass = some c →
    c ≠ lit "None" ∧ ∀ d, f.portCode ++ 0x2F :: d ∈
      portCodes roll.facts roll.gateScans roll.bookings → c ≠ d ++ lit "/None"

variable {L : Library} {events : List (Row F)} {start stop : ℤ} {roll : Rollup F} {keys : List Text}

/-- The steps of a rollup. -/
theorem rollup_eq_ok (h : rollup L events start stop = .ok roll) :
    assemblePortCallFacts L events start stop = .ok roll.facts ∧
      computeKpiObservations roll.facts roll.gateScans roll.bookings = .ok roll.observations := by
  obtain ⟨facts, hfacts, h⟩ := bind_eq_ok.1 h
  obtain ⟨gateScans, -, h⟩ := bind_eq_ok.1 h
  obtain ⟨bookings, -, h⟩ := bind_eq_ok.1 h
  obtain ⟨observations, hobservations, h⟩ := bind_eq_ok.1 h
  cases h
  exact ⟨hfacts, hobservations⟩

/-- The row of a count, of a class or of all classes. -/
theorem exists_row_of_count (run : RunContext) {port : Text} {shipClass : Option Text}
    (h : rollup L events start stop = .ok roll)
    (hport : port ∈ portCodes roll.facts roll.gateScans roll.bookings)
    (hcount : ((roll.facts.filter Fact.isAccepted).flatMap countedUnder).count (port, shipClass) ≠ 0) :
    ∃ r ∈ roll.rows run, r.identity = (vesselCalls.kpiId, some port, shipClass, none) := by
  have ho := mem_callObservations.2 ⟨port, shipClass, _, rfl, hcount, rfl⟩
  have hobserved := mem_observedAt.2 ⟨⟨_, vesselCalls_of_computed (rollup_eq_ok h).2, ho⟩, rfl⟩
  have hrow := List.mem_map_of_mem (f := observationRow run vesselCalls (some port))
    ((mem_sortBy : _ ∈ sortBy segmentKey _ ↔ _).2 hobserved)
  rw [← rowsAt_some rfl (List.ne_nil_of_mem hobserved)] at hrow
  exact ⟨_, mem_emitValueRows.2 ⟨_, vesselCalls_mem, _, mem_discoverPorts.2 hport, hrow⟩, rfl⟩

/-- At a port of no call there is a row without a class. -/
theorem exists_row_without_calls (run : RunContext) {port : Text}
    (h : rollup L events start stop = .ok roll)
    (hport : port ∈ portCodes roll.facts roll.gateScans roll.bookings)
    (hfacts : ∀ f ∈ roll.facts, f.portCode ≠ port) :
    ∃ r ∈ roll.rows run, r.identity = (vesselCalls.kpiId, some port, none, none) := by
  have hnil : observedAt roll.observations vesselCalls (some port) = [] := by
    refine List.eq_nil_iff_forall_not_mem.2 fun o ho => ?_
    obtain ⟨⟨l, hl, ho⟩, hoport⟩ := mem_observedAt.1 ho
    obtain rfl := Option.some.inj ((vesselCalls_of_computed (rollup_eq_ok h).2).symm.trans hl)
    obtain ⟨f, hf, hfport, -⟩ := exists_fact_of_observed ho
    exact hfacts f (List.mem_filter.1 hf).1 (Option.some.inj (hfport.symm.trans hoport))
  have hrow := List.mem_singleton_self (noteRow (F := F) run vesselCalls (some port) noDataNote)
  rw [← rowsAt_none rfl hnil] at hrow
  exact ⟨_, mem_emitValueRows.2 ⟨_, vesselCalls_mem, _, mem_discoverPorts.2 hport, hrow⟩, rfl⟩

omit [PyFloat F] [PyMath F] in
/-- What the rows of a run share. -/
theorem run_of_mem_rows {run : RunContext} {r : ValueRow F} (hr : r ∈ roll.rows run) :
    r.runId = run.runId ∧ r.period = run.period ∧ ∃ d ∈ kpiDefinitions, r.kpiId = d.kpiId := by
  obtain ⟨d, hd, p, -, hr⟩ := mem_emitValueRows.1 hr
  obtain ⟨note, rfl⟩ | ⟨o, -, rfl⟩ := mem_rowsAt hr
  all_goals exact ⟨rfl, rfl, d, hd, rfl⟩

/-- The part of the text of a row that two rows of a run can share. -/
def segmentText (port shipClass : Option Text) : Text := strOf port ++ 0x2F :: strOf shipClass

omit [PyFloat F] [PyMath F] in
/-- **Texts of rows of a run agree** where figure, percentile and the texts
of port and class do. -/
theorem material_eq_iff {run : RunContext} {r r' : ValueRow F} (hr : r ∈ roll.rows run)
    (hr' : r' ∈ roll.rows run) (hp : r.percentile ∈ [none, some p50, some p90])
    (hp' : r'.percentile ∈ [none, some p50, some p90]) :
    valueRowMaterial r = valueRowMaterial r' ↔ r.kpiId = r'.kpiId ∧
      segmentText r.portCode r.shipClass = segmentText r'.portCode r'.shipClass ∧
        r.percentile = r'.percentile := by
  obtain ⟨hrun, hperiod, d, hd, hkpi⟩ := run_of_mem_rows hr
  obtain ⟨hrun', hperiod', d', hd', hkpi'⟩ := run_of_mem_rows hr'
  have hslash : ∀ {p : Option Text}, p ∈ [none, some p50, some p90] → 0x2F ∉ strOf p := by
    intro p hp
    simp only [List.mem_cons, List.not_mem_nil, or_false] at hp
    obtain rfl | rfl | rfl := hp
    all_goals decide
  have hinj : ∀ {p q : Option Text}, p ∈ [none, some p50, some p90] →
      q ∈ [none, some p50, some p90] → strOf p = strOf q → p = q := by
    intro p q hp hq h
    simp only [List.mem_cons, List.not_mem_nil, or_false] at hp hq
    obtain rfl | rfl | rfl := hp <;> obtain rfl | rfl | rfl := hq
    all_goals first | rfl | exact absurd h (by decide)
  rw [valueRowMaterial_eq, valueRowMaterial_eq, hrun, hrun', hperiod, hperiod', segmentText,
    segmentText]
  constructor
  · intro h
    obtain ⟨hk, h⟩ := Text.partition_inj (hkpi ▸ slash_notMem_kpiId d hd)
      (hkpi' ▸ slash_notMem_kpiId d' hd') (List.cons.inj (List.append_cancel_left h)).2
    obtain ⟨hsegment, hpercentile⟩ := Text.rpartition_inj (hslash hp) (hslash hp')
      (List.cons.inj (List.append_cancel_left h)).2
    exact ⟨hk, hsegment, hinj hp hp' hpercentile⟩
  · rintro ⟨hk, hsegment, hpercentile⟩
    rw [hk, hsegment, hpercentile]

omit [PyFloat F] [PyMath F] in
/-- The absent port is discovered alone. -/
theorem ne_none_of_discovered {p : Option Text} {port : Text}
    (hp : p ∈ discoverPorts roll.facts roll.gateScans roll.bookings)
    (hport : port ∈ portCodes roll.facts roll.gateScans roll.bookings) : p ≠ none := by
  rintro rfl
  rw [none_mem_discoverPorts.1 hp] at hport
  cases hport

omit [PyFloat F] [PyMath F] in
/-- No two discovered ports read alike. -/
theorem eq_of_discovered {p p' : Option Text}
    (hp : p ∈ discoverPorts roll.facts roll.gateScans roll.bookings)
    (hp' : p' ∈ discoverPorts roll.facts roll.gateScans roll.bookings) (h : strOf p = strOf p') :
    p = p' := by
  cases p with
  | none =>
    cases p' with
    | none => rfl
    | some port' => exact absurd rfl (ne_none_of_discovered hp (mem_discoverPorts.1 hp'))
  | some port =>
    cases p' with
    | none => exact absurd rfl (ne_none_of_discovered hp' (mem_discoverPorts.1 hp))
    | some port' => exact congrArg some h

/-- A class shares its text with no class, at its port or at one its port
starts. -/
theorem segmentText_eq_none {port port' c : Text} (hport : 0x2F ∉ port) :
    segmentText (some port) (some c) = segmentText (some port') none ↔
      port' = port ∧ c = lit "None" ∨
        ∃ d, port' = port ++ 0x2F :: d ∧ c = d ++ lit "/None" := by
  constructor
  · exact append_slash_eq hport
  · rintro (⟨rfl, rfl⟩ | ⟨d, rfl, rfl⟩)
    · rfl
    · simp [segmentText, strOf, lit]

/-- Where no class reads like an absent one, texts of port and class tell
the rows of a figure apart. -/
theorem segment_inj (hfree : ClashFree roll) (h : rollup L events start stop = .ok roll)
    {run : RunContext} {r r' : ValueRow F} (hr : r ∈ roll.rows run) (hr' : r' ∈ roll.rows run)
    (htext : segmentText r.portCode r.shipClass = segmentText r'.portCode r'.shipClass) :
    r.portCode = r'.portCode ∧ r.shipClass = r'.shipClass := by
  obtain ⟨hfacts, hobservations⟩ := rollup_eq_ok h
  have hclass : ∀ r ∈ roll.rows run, ∀ c, r.shipClass = some c → ∃ f ∈ roll.facts,
      f.isAccepted = true ∧ f.shipClass = some c ∧ r.portCode = some f.portCode ∧
        0x2F ∉ f.portCode := by
    intro r hr c hc
    obtain ⟨-, f, hf, haccepted, hfc, hfport⟩ := (segment_of_mem hobservations hr).2 c hc
    exact ⟨f, hf, haccepted, hfc, hfport, slash_notMem_of_isUnlocode (isUnlocode_of_assembled hfacts f hf)⟩
  have hport : ∀ r ∈ roll.rows run,
      r.portCode ∈ discoverPorts roll.facts roll.gateScans roll.bookings := by
    intro r hr
    obtain ⟨d, -, p, hp, hr⟩ := mem_emitValueRows.1 hr
    rwa [(names_of_mem_rowsAt hr).2]
  -- a class and none never read alike
  have hmixed : ∀ r ∈ roll.rows run, ∀ r' ∈ roll.rows run, ∀ c, r.shipClass = some c →
      r'.shipClass = none →
      segmentText r.portCode r.shipClass ≠ segmentText r'.portCode r'.shipClass := by
    intro r hr r' hr' c hc hc' hsame
    obtain ⟨f, hf, haccepted, hfc, hfport, hslash⟩ := hclass r hr c hc
    obtain ⟨hnone, hcut⟩ := hfree f hf haccepted c hfc
    rw [hc, hc', hfport] at hsame
    have hmem : f.portCode ∈ portCodes roll.facts roll.gateScans roll.bookings :=
      List.mem_append_left _ (List.mem_append_left _ (List.mem_map_of_mem hf))
    have hp' := hport r' hr'
    obtain ⟨p', hp'some⟩ := Option.ne_none_iff_exists'.1 (ne_none_of_discovered hp' hmem)
    rw [hp'some] at hsame hp'
    obtain ⟨-, hc⟩ | ⟨d, rfl, hc⟩ := (segmentText_eq_none hslash).1 hsame
    · exact hnone hc
    · exact hcut d (mem_discoverPorts.1 hp') hc
  cases hc : r.shipClass with
  | none =>
    cases hc' : r'.shipClass with
    | none =>
      rw [hc, hc'] at htext
      refine ⟨?_, rfl⟩
      exact eq_of_discovered (hport r hr) (hport r' hr')
        (Text.rpartition_inj (by decide) (by decide) htext).1
    | some c' => exact absurd htext.symm (hmixed r' hr' r hr c' hc' hc)
  | some c =>
    cases hc' : r'.shipClass with
    | none => exact absurd htext (hmixed r hr r' hr' c hc hc')
    | some c' =>
      obtain ⟨f, -, -, -, hfport, hslash⟩ := hclass r hr c hc
      obtain ⟨f', -, -, -, hfport', hslash'⟩ := hclass r' hr' c' hc'
      rw [hc, hc', hfport, hfport'] at htext
      obtain ⟨hp, hcc⟩ := Text.partition_inj hslash hslash' htext
      rw [hfport, hfport']
      exact ⟨congrArg some hp, congrArg some hcc⟩

/-- A class that reads like an absent one makes two keys one. -/
theorem clashFree_of_nodup (hsha : Function.Injective L.sha256) (run : RunContext)
    (h : rollup L events start stop = .ok roll) (hkeys : roll.keys L run = .ok keys)
    (hnodup : keys.Nodup) : ClashFree roll := by
  obtain ⟨hfacts, hobservations⟩ := rollup_eq_ok h
  have hinj := (nodup_keys_iff hsha (nodup_identity hobservations nodup_discoverPorts) hkeys).1 hnodup
  have hunlocode : ∀ f ∈ roll.facts, 0x2F ∉ f.portCode := fun f hf =>
    slash_notMem_of_isUnlocode (isUnlocode_of_assembled hfacts f hf)
  intro f hf haccepted c hc
  have hmem : f ∈ roll.facts.filter Fact.isAccepted := List.mem_filter.2 ⟨hf, haccepted⟩
  have hport : f.portCode ∈ portCodes roll.facts roll.gateScans roll.bookings :=
    List.mem_append_left _ (List.mem_append_left _ (List.mem_map_of_mem hf))
  have hcount : ∀ shipClass ∈ [some c, none],
      ((roll.facts.filter Fact.isAccepted).flatMap countedUnder).count (f.portCode, shipClass) ≠ 0 := by
    intro shipClass hclass
    refine count_countedUnder hmem (mem_countedUnder.2 ⟨rfl, ?_⟩)
    simpa [hc] using hclass
  obtain ⟨r, hr, hid⟩ := exists_row_of_count run h hport (hcount (some c) (by simp))
  have hclash : ∀ r' ∈ roll.rows run, ∀ port',
      r'.identity = (vesselCalls.kpiId, some port', none, none) →
      segmentText (some f.portCode) (some c) ≠ segmentText (some port') none := by
    intro r' hr' port' hid' htext
    have hsame := (material_eq_iff hr hr' (segment_of_mem hobservations hr).1
      (segment_of_mem hobservations hr').1).2 (by
        obtain ⟨hk, hp, hc, hpercentile⟩ := ValueRow.identity_eq.1 hid
        obtain ⟨hk', hp', hc', hpercentile'⟩ := ValueRow.identity_eq.1 hid'
        rw [hk, hk', hp, hp', hc, hc', hpercentile, hpercentile']
        exact ⟨rfl, htext, rfl⟩)
    have hid := hid.symm.trans ((hinj r hr r' hr' hsame).trans hid')
    simp at hid
  constructor
  · intro hnone
    obtain ⟨r', hr', hid'⟩ := exists_row_of_count run h hport (hcount none (by simp))
    exact hclash r' hr' _ hid' ((segmentText_eq_none (hunlocode f hf)).2 (Or.inl ⟨rfl, hnone⟩))
  · intro d hd hcd
    have hnocall : ∀ f' ∈ roll.facts, f'.portCode ≠ f.portCode ++ 0x2F :: d :=
      fun f' hf' hport' => hunlocode f' hf' (by rw [hport']; simp)
    obtain ⟨r', hr', hid'⟩ := exists_row_without_calls run h hd hnocall
    exact hclash r' hr' _ hid' ((segmentText_eq_none (hunlocode f hf)).2 (Or.inr ⟨d, rfl, hcd⟩))

/-- **The keys of a run differ** exactly where no class of an accepted call
reads like an absent one. -/
theorem value_keys_nodup_iff (hsha : Function.Injective L.sha256) (run : RunContext)
    (h : rollup L events start stop = .ok roll) (hkeys : roll.keys L run = .ok keys) :
    keys.Nodup ↔ ClashFree roll := by
  constructor
  · exact clashFree_of_nodup hsha run h hkeys
  · obtain ⟨-, hobservations⟩ := rollup_eq_ok h
    intro hfree
    refine (nodup_keys_iff hsha (nodup_identity hobservations nodup_discoverPorts) hkeys).2 ?_
    intro r hr r' hr' hsame
    obtain ⟨hk, htext, hpercentile⟩ := (material_eq_iff hr hr' (segment_of_mem hobservations hr).1
      (segment_of_mem hobservations hr').1).1 hsame
    obtain ⟨hport, hclass⟩ := segment_inj hfree h hr hr' htext
    exact ValueRow.identity_eq.2 ⟨hk, hport, hclass, hpercentile⟩

end Rollup

/-- An accepted port call of March 2026, of a ship of some class. -/
def classedCall (shipClass : Text) : Row Decimal :=
  [("event_id", .text (lit "call-1-accepted")), ("event_type", .text portCallEventType),
    ("occurred_at", .instant 1772600000000000),
    ("payload_json", .text (lit "\x7b\x22portCallId\x22:\x22call-1\x22,\x22portCode\x22:\x22NGLOS\x22," ++
      lit "\x22status\x22:\x22ACCEPTED\x22,\x22shipClass\x22:\x22" ++ shipClass ++ lit "\x22\x7d"))]

/-- The run of March 2026 over a call of some class. -/
def marchRollup (shipClass : Text) : Except PyError (Rollup Decimal) :=
  rollup Library.ascii [classedCall shipClass] 1772323200000000 1775001600000000

/-- The sample month has its rollup and its keys. -/
theorem exists_marchRollup (shipClass : Text) (h : shipClass ∈ [lit "Tanker", lit "None"]) :
    ∃ roll keys, marchRollup shipClass = .ok roll ∧ roll.keys Library.ascii sampleRun = .ok keys ∧
      roll.facts.map (fun f => (f.isAccepted, f.shipClass)) = [(true, some shipClass)] := by
  have hany : (marchRollup shipClass).toOption.any (fun roll =>
      (roll.keys Library.ascii sampleRun).toOption.isSome && decide (roll.facts.map (fun f =>
        (f.isAccepted, f.shipClass)) = [(true, some shipClass)])) = true := by
    simp only [List.mem_cons, List.not_mem_nil, or_false] at h
    obtain rfl | rfl := h
    · decide +kernel
    · decide +kernel
  obtain ⟨roll, hroll, hkeys⟩ := exists_of_any hany
  rw [Bool.and_eq_true, decide_eq_true_eq, Option.isSome_iff_exists] at hkeys
  obtain ⟨⟨keys, hkeys⟩, hfacts⟩ := hkeys
  exact ⟨roll, keys, hroll, toOption_eq_some.1 hkeys, hfacts⟩

/-- One accepted call of a tanker. -/
theorem value_keys_differ_tanker : ∃ roll keys, marchRollup (lit "Tanker") = .ok roll ∧
    roll.keys Library.ascii sampleRun = .ok keys ∧ keys.Nodup := by
  obtain ⟨roll, keys, hroll, hkeys, hfacts⟩ := exists_marchRollup (lit "Tanker") (by simp)
  refine ⟨roll, keys, hroll, hkeys, (value_keys_nodup_iff Library.ascii_sha256_injective sampleRun hroll
    hkeys).2 fun f hf _ c hc => ?_⟩
  have hmem := List.mem_map_of_mem (f := fun f => (f.isAccepted, f.shipClass)) hf
  rw [hfacts, List.mem_singleton, Prod.mk.injEq, hc] at hmem
  obtain rfl := Option.some.inj hmem.2
  refine ⟨by decide, fun d _ hd => ?_⟩
  have hlast := congrArg List.getLast? hd
  rw [List.getLast?_append_of_ne_nil _ (by decide)] at hlast
  exact absurd hlast (by decide)

/-- **The class `None`** reads like all classes. -/
theorem value_keys_repeat_none : ∃ roll keys, marchRollup (lit "None") = .ok roll ∧
    roll.keys Library.ascii sampleRun = .ok keys ∧ ¬keys.Nodup := by
  obtain ⟨roll, keys, hroll, hkeys, hfacts⟩ := exists_marchRollup (lit "None") (by simp)
  refine ⟨roll, keys, hroll, hkeys, fun hnodup => ?_⟩
  have hfree := clashFree_of_nodup Library.ascii_sha256_injective sampleRun hroll hkeys hnodup
  have hmem : (true, some (lit "None")) ∈ roll.facts.map fun f => (f.isAccepted, f.shipClass) := by
    rw [hfacts]
    exact List.mem_singleton_self _
  obtain ⟨f, hf, hpair⟩ := List.mem_map.1 hmem
  obtain ⟨haccepted, hclass⟩ := Prod.mk.inj hpair
  exact (hfree f hf haccepted _ hclass).1 rfl

end PortStatistics

end Lakehouse

import Lakehouse.PortStatistics.Kpi
/-!
# Every port call is counted

A port call is a fact of the one period its attributed instant lies in. In
the facts of a period the counts of the classes, and the calls without a
class, add up to the count of the port.
-/

namespace Lakehouse

namespace PortStatistics

variable {F : Type} [PyFloat F] {L : Library} {events : List (Row F)}
  {calls : Members (CallEntry F)} {facts : List (Fact F)} {start stop : ℤ} {portCallId : Text}
  {entry : CallEntry F}

/-! ## Facts and port calls -/

/-- The calls grouped are distinct. -/
theorem groupCalls_distinct (h : groupCalls L events = .ok calls) : calls.Distinct :=
  groupPass_distinct Members.distinct_nil h

/-- The port calls are those of the events. -/
theorem exists_entry_iff (h : groupCalls L events = .ok calls) :
    (∃ entry, (portCallId, entry) ∈ calls) ↔
      ∃ event ∈ events, ∃ call, callEvent L event = .ok (some (portCallId, call)) := by
  have hget : (∃ entry, (portCallId, entry) ∈ calls) ↔ calls.get portCallId ≠ none := by
    rw [Option.ne_none_iff_exists']
    exact exists_congr fun entry => (Members.get_eq_some (groupCalls_distinct h)).symm
  rw [hget, ne_eq, groupPass_get_eq_none h]
  constructor
  · intro hne
    obtain ⟨call, hcall⟩ := List.exists_mem_of_ne_nil _ hne
    obtain ⟨event, hevent, hdecode⟩ := exists_of_mem_entriesOf hcall
    exact ⟨event, hevent, call, hdecode⟩
  · rintro ⟨event, hevent, call, hcall⟩
    exact List.ne_nil_of_mem (mem_entriesOf hevent hcall)

/-- **The facts of a period** are the calls attributed to it, one for each. -/
theorem portCallIds_of_assembled (hcalls : groupCalls L events = .ok calls)
    (h : assemblePortCallFacts L events start stop = .ok facts) :
    facts.map Fact.portCallId = ((sortBy Prod.fst calls).filter fun c =>
      inPeriod c.2.attributable start stop).map Prod.fst := by
  obtain ⟨calls', hcalls', h⟩ := bind_eq_ok.1 h
  obtain rfl := Except.ok.inj (hcalls.symm.trans hcalls')
  rw [collect_eq_ok, List.forall₂_map_left_iff] at h
  have hids : List.Forall₂ Eq (((sortBy Prod.fst calls).filter fun c =>
      inPeriod c.2.attributable start stop).map Prod.fst) (facts.map Fact.portCallId) := by
    rw [List.forall₂_map_left_iff, List.forall₂_map_right_iff]
    refine h.imp fun c f hf => ?_
    obtain ⟨_, -, hf⟩ := bind_eq_ok.1 hf
    obtain ⟨_, -, hf⟩ := bind_eq_ok.1 hf
    cases hf
    rfl
  rw [List.forall₂_eq_eq_eq] at hids
  exact hids.symm

/-- The facts of a period are of distinct calls. -/
theorem nodup_portCallIds (h : assemblePortCallFacts L events start stop = .ok facts) :
    (facts.map Fact.portCallId).Nodup := by
  obtain ⟨calls, hcalls, -⟩ := bind_eq_ok.1 h
  rw [portCallIds_of_assembled hcalls h]
  have hnodup : ((sortBy Prod.fst calls).map Prod.fst).Nodup :=
    ((perm_sortBy _ calls).map Prod.fst).nodup_iff.2 (groupCalls_distinct hcalls)
  exact hnodup.sublist (List.filter_sublist.map _)

/-- **A call is among the facts of the period it is attributed to.** -/
theorem mem_portCallIds (hcalls : groupCalls L events = .ok calls)
    (h : assemblePortCallFacts L events start stop = .ok facts) (hentry : (portCallId, entry) ∈ calls) :
    portCallId ∈ facts.map Fact.portCallId ↔ inPeriod entry.attributable start stop = true := by
  have hget : ∀ {entry}, (portCallId, entry) ∈ calls ↔ calls.get portCallId = some entry :=
    (Members.get_eq_some (groupCalls_distinct hcalls)).symm
  rw [portCallIds_of_assembled hcalls h, List.mem_map]
  constructor
  · rintro ⟨⟨_, entry'⟩, hmem, rfl⟩
    obtain ⟨hmem, hin⟩ := List.mem_filter.1 hmem
    have hsame : some entry' = some entry :=
      (hget.1 (mem_sortBy.1 hmem)).symm.trans (hget.1 hentry)
    rwa [Option.some.inj hsame] at hin
  · intro hin
    exact ⟨_, List.mem_filter.2 ⟨mem_sortBy.2 hentry, hin⟩, rfl⟩

/-! ## Counts -/

section Counts

variable {F : Type} [Arithmetic F] {accepted : List (Fact F)} {port : Text}

/-- The sum of the counts of some classes of a port. -/
def countOf (l : List (Observation F)) (port : Text) (classes : Option Text → Bool) : ℕ :=
  ((l.filter fun o => o.portCode = some port && classes o.shipClass).map
    Observation.nObservations).sum

/-- A count sums what is counted under its keys. -/
theorem countOf_callObservations (accepted : List (Fact F)) (port : Text)
    (classes : Option Text → Bool) : countOf (callObservations accepted) port classes =
      (accepted.flatMap countedUnder).countP fun key => key.1 = port && classes key.2 := by
  rw [← Dict.sum_filter_tally (fun key : Text × Option Text => key.1 = port && classes key.2)
    (accepted.flatMap countedUnder), countOf, callObservations, List.filter_map, List.map_map]
  have hperm := (((perm_sortBy (fun entry => (toLex (entry.1.1, strOf entry.1.2) : Text ×ₗ Text))
    (callsByPortClass accepted)).filter fun entry =>
      entry.1.1 = port && classes entry.1.2).map Prod.snd).sum_eq
  rw [callsByPortClass] at hperm
  rw [← hperm]
  simp [Function.comp_def, callsByPortClass]

omit [Arithmetic F] in
/-- A call is counted once for its class and once in all. -/
theorem countP_countedUnder (accepted : List (Fact F)) (port : Text) :
    (accepted.flatMap countedUnder).countP (fun key => key.1 = port && key.2.isSome) =
        accepted.countP (fun f => f.portCode = port && f.shipClass.isSome) ∧
      (accepted.flatMap countedUnder).countP (fun key => key.1 = port && key.2.isNone) =
        accepted.countP fun f => f.portCode = port := by
  induction accepted with
  | nil => exact ⟨rfl, rfl⟩
  | cons f accepted ih =>
    rw [List.flatMap_cons, List.countP_append, List.countP_append, ih.1, ih.2, List.countP_cons,
      List.countP_cons, countedUnder]
    cases hc : f.shipClass with
    | none => simp [List.countP_cons, Nat.add_comm]
    | some c => simp [List.countP_cons, Nat.add_comm]

/-- **The counts of a port add up.** -/
theorem calls_conserved (accepted : List (Fact F)) (port : Text) :
    countOf (callObservations accepted) port Option.isSome +
        accepted.countP (fun f => f.portCode = port && f.shipClass.isNone) =
      countOf (callObservations accepted) port Option.isNone ∧
    countOf (callObservations accepted) port Option.isNone =
      accepted.countP fun f => f.portCode = port := by
  obtain ⟨hclasses, haggregate⟩ := countP_countedUnder accepted port
  rw [countOf_callObservations, countOf_callObservations, hclasses, haggregate]
  refine ⟨?_, rfl⟩
  clear hclasses haggregate
  induction accepted with
  | nil => rfl
  | cons f accepted ih =>
    simp only [List.countP_cons]
    by_cases hp : f.portCode = port <;> cases f.shipClass <;> simp [hp] <;> omega

end Counts

/-! ## All periods -/

/-- **Port calls are conserved**: a call attributed before 9999-12 is a fact
of exactly one period, and in the facts of any period the classes of a port
and its calls without a class add up to the accepted calls of the port. -/
theorem port_calls_conserved [PyMath F]
    (hvalid : ∀ period start stop, parsePeriod L period = .ok (start, stop) →
      ∃ facts, assemblePortCallFacts L events start stop = .ok facts)
    (hcalls : groupCalls L events = .ok calls) :
    (∀ event ∈ events, ∀ portCallId call, callEvent L event = .ok (some (portCallId, call)) →
        ∃ entry, (portCallId, entry) ∈ calls ∧ (monthStart 0 ≤ entry.attributable →
          entry.attributable < monthStart monthCount →
          ∃! period, ∃ start stop facts, parsePeriod L period = .ok (start, stop) ∧
            assemblePortCallFacts L events start stop = .ok facts ∧
            (facts.map Fact.portCallId).count portCallId = 1)) ∧
      ∀ period start stop facts gateScans bookings observations,
        parsePeriod L period = .ok (start, stop) →
        assemblePortCallFacts L events start stop = .ok facts →
        computeKpiObservations facts gateScans bookings = .ok observations →
        ∃ l, observations.get (lit "vessel_calls") = some l ∧ ∀ port,
          countOf l port Option.isSome + facts.countP (fun f =>
              f.isAccepted && f.portCode = port && f.shipClass.isNone) =
            countOf l port Option.isNone ∧
          countOf l port Option.isNone = facts.countP fun f => f.isAccepted && f.portCode = port := by
  constructor
  · intro event hevent portCallId call hcall
    obtain ⟨entry, hentry⟩ := (exists_entry_iff hcalls).2 ⟨event, hevent, call, hcall⟩
    refine ⟨entry, hentry, fun h0 hlast => ?_⟩
    -- the facts of a period are the calls attributed to it
    have hone : ∀ period, (∃ start stop facts, parsePeriod L period = .ok (start, stop) ∧
        assemblePortCallFacts L events start stop = .ok facts ∧
        (facts.map Fact.portCallId).count portCallId = 1) ↔
        ∃ start stop, parsePeriod L period = .ok (start, stop) ∧
          inPeriod entry.attributable start stop = true := by
      intro period
      constructor
      · rintro ⟨start, stop, facts, hparse, hfacts, hcount⟩
        refine ⟨start, stop, hparse, (mem_portCallIds hcalls hfacts hentry).1 ?_⟩
        exact List.count_pos_iff.1 (by omega)
      · rintro ⟨start, stop, hparse, hin⟩
        obtain ⟨facts, hfacts⟩ := hvalid period start stop hparse
        refine ⟨start, stop, facts, hparse, hfacts, ?_⟩
        exact List.count_eq_one_of_mem (nodup_portCallIds hfacts)
          ((mem_portCallIds hcalls hfacts hentry).2 hin)
    simp only [hone]
    exact exists_unique_period h0 hlast
  · intro period start stop facts gateScans bookings observations _ _ hobservations
    obtain ⟨_, _, _, _, _, _, _, -, -, -, -, -, -, -, rfl⟩ :=
      computeKpiObservations_eq_ok hobservations
    refine ⟨callObservations (facts.filter Fact.isAccepted), rfl, fun port => ?_⟩
    have hconserved := calls_conserved (facts.filter Fact.isAccepted) port
    have hfilter : ∀ p : Fact F → Bool, (facts.filter Fact.isAccepted).countP p =
        facts.countP fun f => f.isAccepted && p f := fun p => by
      rw [List.countP_filter]
      exact List.countP_congr fun f _ => by rw [Bool.and_comm]
    rw [hfilter, hfilter] at hconserved
    simpa only [Bool.and_assoc] using hconserved

/-- An accepted port call of March 2026. -/
def acceptedCall : Row Decimal :=
  [("event_id", .text (lit "call-1-accepted")), ("event_type", .text portCallEventType),
    ("occurred_at", .instant 1772600000000000),
    ("payload_json", .text (lit "\x7b\x22portCallId\x22:\x22call-1\x22,\x22portCode\x22:\x22NGLOS\x22," ++
      lit "\x22status\x22:\x22ACCEPTED\x22,\x22shipClass\x22:\x22Tanker\x22\x7d"))]

/-- One accepted call. -/
theorem accepted_call_conserved : ∃! period, ∃ start stop facts,
    parsePeriod Library.ascii period = .ok (start, stop) ∧
      assemblePortCallFacts Library.ascii [acceptedCall] start stop = .ok facts ∧
      (facts.map Fact.portCallId).count (lit "call-1") = 1 := by
  obtain ⟨p, hcall, hid⟩ := exists_of_any (x := callEvent Library.ascii acceptedCall)
    (p := fun p => p.any fun c => c.1 = lit "call-1") (by decide +kernel)
  obtain ⟨⟨_, call⟩, rfl, hid⟩ := (Option.any_eq_true _ _).1 hid
  obtain rfl := of_decide_eq_true hid
  obtain ⟨calls, hcalls, hall⟩ := exists_of_any (x := groupCalls Library.ascii [acceptedCall])
    (p := fun calls => calls.all fun c => decide (monthStart 0 ≤ c.2.attributable) &&
      decide (c.2.attributable < monthStart monthCount) &&
        (callFact Library.ascii c.1 c.2).toOption.isSome) (by decide +kernel)
  have hentry : ∀ c ∈ calls, (monthStart 0 ≤ c.2.attributable ∧
      c.2.attributable < monthStart monthCount) ∧ ∃ f, callFact Library.ascii c.1 c.2 = .ok f := by
    intro c hc
    have h := List.all_eq_true.1 hall c hc
    rw [Bool.and_eq_true, Bool.and_eq_true, decide_eq_true_eq, decide_eq_true_eq,
      Option.isSome_iff_exists] at h
    exact ⟨h.1, h.2.imp fun f hf => toOption_eq_some.1 hf⟩
  have hvalid : ∀ period start stop, parsePeriod Library.ascii period = .ok (start, stop) →
      ∃ facts, assemblePortCallFacts Library.ascii [acceptedCall] start stop = .ok facts := by
    intro _ start stop _
    have hfact : ∀ c ∈ (sortBy Prod.fst calls).filter (fun c => inPeriod c.2.attributable start stop),
        ∃ f, callFact Library.ascii c.1 c.2 = .ok f := fun c hc =>
      (hentry c (mem_sortBy.1 (List.mem_filter.1 hc).1)).2
    obtain ⟨facts, hfacts⟩ := exists_collect_map hfact
    exact ⟨facts, bind_eq_ok.2 ⟨calls, hcalls, hfacts⟩⟩
  obtain ⟨entry, hmem, hunique⟩ := (port_calls_conserved hvalid hcalls).1 acceptedCall
    List.mem_cons_self _ call hcall
  exact hunique (hentry _ hmem).1.1 (hentry _ hmem).1.2

end PortStatistics

end Lakehouse

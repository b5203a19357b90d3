import Lakehouse.PortStatistics.Coverage
import Mathlib.Algebra.Order.BigOperators.Group.List
/-!
# Order independence

Over exact rationals, what a run publishes does not depend on the order its
facts, scans and bookings come in, but for one pair of rows: the count of a
class that is written `None`, and the count of all classes of its port,
stand in the order they were first counted in.
-/

namespace Lakehouse

namespace PortStatistics

open Arithmetic

/-! ## Figures over rationals -/

section Figures

variable {values values' : List ℚ} {quantile : ℚ} {percentile : Option Text}

/-- The quantile of the median is a half. -/
theorem half_eq : (half : ℚ) = 1 / 2 := by decide +kernel

/-- The quantile of the ninetieth percentile is nine tenths. -/
theorem nineTenths_eq : (nineTenths : ℚ) = 9 / 10 := by decide +kernel

/-- There is an item at a position in range. -/
theorem itemAt_eq_ok {α : Type} (items : List α) {i : ℤ} (h0 : 0 ≤ i) (h : i < items.length) :
    ∃ a, itemAt items i = .ok a := by
  have hlt : i.toNat < items.length := by omega
  refine ⟨items[i.toNat], ?_⟩
  unfold itemAt
  rw [if_neg (by omega)]
  simp only
  rw [if_neg (by omega), List.getElem?_eq_getElem hlt]

/-- A quantile of several values lies between two of them. -/
theorem interpolate_eq_ok (h : 2 ≤ values.length) (h0 : 0 < quantile) (h1 : quantile < 1) :
    ∃ q, interpolate values quantile = .ok q := by
  have hlast : (0 : ℚ) < ((values.length - 1 : ℤ) : ℚ) := by
    have : (0 : ℤ) < values.length - 1 := by omega
    exact_mod_cast this
  have hrank : 0 ≤ quantile * ((values.length - 1 : ℤ) : ℚ) := by positivity
  have htrunc : trunc (mul quantile (ofInt (values.length - 1))) =
      ⌊quantile * ((values.length - 1 : ℤ) : ℚ)⌋ := if_pos hrank
  have hlower : 0 ≤ ⌊quantile * ((values.length - 1 : ℤ) : ℚ)⌋ := Int.floor_nonneg.2 hrank
  have hupper : ⌊quantile * ((values.length - 1 : ℤ) : ℚ)⌋ < values.length - 1 := by
    rw [Int.floor_lt]
    exact (mul_lt_iff_lt_one_left hlast).2 h1
  obtain ⟨low, hlow⟩ := itemAt_eq_ok values hlower (by omega)
  obtain ⟨high, hhigh⟩ := itemAt_eq_ok values
    (i := min (⌊quantile * ((values.length - 1 : ℤ) : ℚ)⌋ + 1) (values.length - 1)) (by omega) (by omega)
  unfold interpolate
  simp only [htrunc]
  rw [hlow, ok_bind, hhigh, ok_bind]
  exact ⟨_, rfl⟩

/-- A percentile of some values is there. -/
theorem percentileLinear_eq_ok (h : values ≠ []) (h0 : 0 < quantile) (h1 : quantile < 1) :
    ∃ q, percentileLinear values quantile = .ok q := by
  have hempty : ¬values.isEmpty = true := by simpa using h
  have hquantile : ¬(lt (ofInt 0) quantile && lt quantile (ofInt 1)) = false := by
    simp [lt, ofInt, h0, h1]
  have hlength : (sorted values).length = values.length := List.length_insertionSort _ _
  unfold percentileLinear
  rw [if_neg hempty, if_neg hquantile]
  split
  · exact ⟨_, rfl⟩
  · rename_i hsingle
    refine interpolate_eq_ok ?_ h0 h1
    have hpos := List.length_pos_of_ne_nil h
    by_contra hlt
    obtain ⟨x, hx⟩ := List.length_eq_one_iff.1 (by omega : (sorted values).length = 1)
    exact hsingle x hx

/-- A percentile does not depend on the order of the values. -/
theorem percentileLinear_perm (h : values.Perm values') :
    percentileLinear values quantile = percentileLinear values' quantile := by
  unfold percentileLinear
  rw [sorted_perm h, h.isEmpty_eq]

end Figures

/-! ## The figures of a port -/

section Port

variable {F : Type} {β : Type} {percentiles : List (Option Text)}
  {figure : Option Text → List β → Except PyError F} {ps ps' : List (Option Text × β)}
  {l l' : List (Observation F)}

/-- The figures of one entry. -/
theorem figuresOf_singleton (entry : Option Text × List β) : figuresOf percentiles [entry] =
    percentiles.map fun percentile => (entry, percentile) := by
  have hsort : sortBy (fun entry : Option Text × List β => strOf entry.1) [entry] = [entry] := rfl
  rw [figuresOf, hsort, List.flatMap_singleton]

/-- **The figures of one port** are those of its own values. -/
theorem observations_of_port (h : portObservations percentiles figure (Dict.gather ps) = .ok l)
    (port : Option Text) :
    collect ((figuresOf percentiles
      ((Dict.get port (Dict.gather ps)).map fun values => (port, values)).toList).map
        (observe figure)) = .ok (l.filter fun o => o.portCode = port) := by
  rw [portObservations_eq] at h
  have hfilter : (figuresOf percentiles (Dict.gather ps)).filter (fun q => q.1.1 = port) =
      figuresOf percentiles
        ((Dict.get port (Dict.gather ps)).map fun values => (port, values)).toList := by
    rw [figuresOf, figuresOf, List.filter_flatMap, ← Dict.filter_key (Dict.nodup_gather ps),
      ← sortBy_filter]
    generalize sortBy (fun entry : Option Text × List β => strOf entry.1) (Dict.gather ps) = entries
    induction entries with
    | nil => rfl
    | cons entry entries ih =>
      rw [List.flatMap_cons, ih, List.filter_map, List.filter_cons]
      by_cases hport : entry.1 = port
      · simp [Function.comp_def, hport]
      · simp [Function.comp_def, hport]
  rw [← hfilter]
  refine collect_map_filter h fun q _ o ho => ?_
  rw [show o.portCode = q.1.1 from congrArg Prod.fst (observe_eq_ok ho).segment]

/-- Where the figure forgets the order of its values, so do the figures of a
port. -/
theorem observations_of_port_perm (hps : ps.Perm ps')
    (hfigure : ∀ percentile values values', List.Perm values values' →
      figure percentile values = figure percentile values')
    (h : portObservations percentiles figure (Dict.gather ps) = .ok l)
    (h' : portObservations percentiles figure (Dict.gather ps') = .ok l') (port : Option Text) :
    (l.filter fun o => o.portCode = port) = l'.filter fun o => o.portCode = port := by
  have hport := observations_of_port h port
  have hport' := observations_of_port h' port
  have hvalues := Dict.valuesOf_perm hps port
  rw [Dict.get_gather] at hport hport'
  have hnil : Dict.valuesOf port ps = [] ↔ Dict.valuesOf port ps' = [] := by
    rw [← List.length_eq_zero_iff, ← List.length_eq_zero_iff, hvalues.length_eq]
  have hsame : (figuresOf percentiles [(port, Dict.valuesOf port ps)]).map (observe figure) =
      (figuresOf percentiles [(port, Dict.valuesOf port ps')]).map (observe figure) := by
    rw [figuresOf_singleton, figuresOf_singleton, List.map_map, List.map_map]
    refine List.map_congr_left fun percentile _ => ?_
    simp only [Function.comp_apply, observe, hfigure percentile _ _ hvalues, hvalues.length_eq]
  by_cases hvaluesNil : Dict.valuesOf port ps = []
  · rw [if_pos hvaluesNil] at hport
    rw [if_pos (hnil.1 hvaluesNil)] at hport'
    exact Except.ok.inj (hport.symm.trans hport')
  · rw [if_neg hvaluesNil] at hport
    rw [if_neg fun h => hvaluesNil (hnil.2 h)] at hport'
    have hcollect : collect ((figuresOf percentiles [(port, Dict.valuesOf port ps)]).map
        (observe figure)) = .ok (l.filter fun o => o.portCode = port) := hport
    rw [hsame] at hcollect
    exact Except.ok.inj (hcollect.symm.trans hport')

end Port

/-! ## The counts of a port -/

section Counts

variable {F : Type} [Arithmetic F] {accepted accepted' : List (Fact F)} {port : Text}

omit [Arithmetic F] in
/-- What a port's calls are counted under. -/
theorem flatMap_countedUnder_filter (accepted : List (Fact F)) (port : Text) :
    (accepted.flatMap countedUnder).filter (fun key => key.1 = port) =
      (accepted.filter fun f => f.portCode = port).flatMap countedUnder := by
  induction accepted with
  | nil => rfl
  | cons f accepted ih =>
    rw [List.flatMap_cons, List.filter_append, ih, List.filter_cons]
    have hone : (countedUnder f).filter (fun key => key.1 = port) =
        if f.portCode = port then countedUnder f else [] := by
      unfold countedUnder
      split_ifs <;> simp_all
    rw [hone]
    split_ifs <;> simp_all

/-- The counts of a port are those of its calls. -/
theorem callObservations_filter (accepted : List (Fact F)) (port : Text) :
    ((callObservations accepted).filter fun o => o.portCode = some port) =
      callObservations (accepted.filter fun f => f.portCode = port) := by
  rw [callObservations, callObservations, List.filter_map, callsByPortClass, callsByPortClass,
    ← flatMap_countedUnder_filter, ← Dict.filter_tally (fun key : Text × Option Text => key.1 = port),
    ← sortBy_filter]
  refine congrArg _ (List.filter_congr fun entry _ => ?_)
  simp

/-- The observations do not depend on the order of the calls, but for their
own. -/
theorem callObservations_perm (h : accepted.Perm accepted') :
    (callObservations accepted).Perm (callObservations accepted') := by
  refine List.Perm.map _ ((perm_sortBy _ _).trans (.trans ?_ (perm_sortBy _ _).symm))
  exact Dict.tally_perm (h.flatMap_right _)

/-- Calls counted under the same keys are counted alike in any order. -/
theorem callObservations_of_constant (h : accepted.Perm accepted') (keys : List (Text × Option Text))
    (hkeys : ∀ f ∈ accepted, countedUnder f = keys) :
    callObservations accepted = callObservations accepted' := by
  have hmap : accepted.map countedUnder = accepted'.map countedUnder := by
    rw [List.map_eq_replicate_iff.2 hkeys,
      List.map_eq_replicate_iff.2 fun f hf => hkeys f (h.mem_iff.2 hf), h.length_eq]
  rw [callObservations, callObservations, callsByPortClass, callsByPortClass, List.flatMap, hmap]
  rfl

/-- **The class that reads like none.** -/
def noneText : Option Text := some (lit "None")

/-- Where no call is of the class `None`, the order of the rows of a port is
that of their classes. -/
theorem sortBy_segmentKey_perm (h : accepted.Perm accepted')
    (hport : ∀ f ∈ accepted, f.portCode = port) (hclass : ∀ f ∈ accepted, f.shipClass ≠ noneText) :
    sortBy segmentKey (callObservations accepted) = sortBy segmentKey (callObservations accepted') := by
  refine sortBy_perm (callObservations_perm h) ?_
  have hsegments := (segmented_callObservations accepted).nodup
  refine hsegments.of_map.map_on fun o ho o' ho' hkey => ?_
  refine List.inj_on_of_nodup_map hsegments ho ho' ?_
  obtain ⟨f, hf, hoport, hoclass, hpercentile⟩ := exists_fact_of_observed ho
  obtain ⟨f', hf', hoport', hoclass', hpercentile'⟩ := exists_fact_of_observed ho'
  have hstr : strOf o.shipClass = strOf o'.shipClass :=
    congrArg (fun key : Text ×ₗ Text => (ofLex key).1) hkey
  have hne : ∀ {o : Observation F} {f : Fact F}, f ∈ accepted →
      o.shipClass = none ∨ o.shipClass = f.shipClass → o.shipClass ≠ noneText := by
    intro o f hf ho
    obtain ho | ho := ho
    · rw [ho]
      nofun
    · rw [ho]
      exact hclass f hf
  have hne₁ := hne hf hoclass
  have hne₂ := hne hf' hoclass'
  have hsame : o.shipClass = o'.shipClass := by
    cases hc : o.shipClass <;> cases hc' : o'.shipClass <;> rw [hc] at hstr hne₁ <;>
      rw [hc'] at hstr hne₂
    · exact absurd (congrArg some hstr.symm) hne₂
    · exact absurd (congrArg some hstr) hne₁
    · exact congrArg some hstr
  rw [Observation.segment, Observation.segment, hoport, hoport', hport f hf, hport f' hf', hsame,
    hpercentile, hpercentile']

/-- The counts that read like that of all classes. -/
def readsNone (shipClass : Option Text) : Bool := strOf shipClass = lit "None"

/-- The first of them is the one counted first. -/
theorem head?_readsNone (hport : ∀ f ∈ accepted, f.portCode = port) :
    (((callObservations accepted).filter fun o => readsNone o.shipClass).map
        Observation.shipClass).head? =
      ((accepted.flatMap countedUnder).filter fun key => readsNone key.2).head?.map Prod.snd := by
  have hkeys : ∀ key ∈ (accepted.flatMap countedUnder).filter (fun key => readsNone key.2),
      key.1 = port ∧ strOf key.2 = lit "None" := by
    intro key hkey
    obtain ⟨hkey, hreads⟩ := List.mem_filter.1 hkey
    obtain ⟨f, hf, hkey⟩ := List.mem_flatMap.1 hkey
    exact ⟨(mem_countedUnder.1 hkey).1.trans (hport f hf), of_decide_eq_true hreads⟩
  have hsorted : (Dict.tally ((accepted.flatMap countedUnder).filter fun key => readsNone key.2)).Pairwise
      fun e e' => (toLex (e.1.1, strOf e.1.2) : Text ×ₗ Text) ≤ toLex (e'.1.1, strOf e'.1.2) := by
    refine List.pairwise_of_forall_mem_list fun e he e' he' => le_of_eq ?_
    have hmem : ∀ e ∈ Dict.tally ((accepted.flatMap countedUnder).filter fun key => readsNone key.2),
        e.1.1 = port ∧ strOf e.1.2 = lit "None" := by
      intro e he
      obtain ⟨hn, hpos⟩ := Dict.mem_tally.1 he
      exact hkeys _ (List.count_pos_iff.1 (Nat.pos_of_ne_zero (hn ▸ hpos)))
    rw [(hmem e he).1, (hmem e he).2, (hmem e' he').1, (hmem e' he').2]
  rw [← Dict.head?_tally ((accepted.flatMap countedUnder).filter fun key => readsNone key.2),
    callObservations, List.filter_map, List.map_map, callsByPortClass]
  have hfilter := sortBy_filter (fun e : (Text × Option Text) × ℕ =>
    (toLex (e.1.1, strOf e.1.2) : Text ×ₗ Text)) (Dict.tally (accepted.flatMap countedUnder))
    fun e => readsNone e.1.2
  rw [Dict.filter_tally fun key : Text × Option Text => readsNone key.2,
    sortBy_of_pairwise hsorted] at hfilter
  refine (congrArg (fun l : List ((Text × Option Text) × ℕ) => (l.map fun e => e.1.2).head?)
    hfilter).trans ?_
  rw [List.head?_map, List.head?_map, Option.map_map]
  rfl

/-- **No port mixes them**: where one accepted call of a port is of the class
`None`, all are. -/
def Unmixed (facts : List (Fact F)) : Prop :=
  ∀ f ∈ facts, ∀ g ∈ facts, f.isAccepted = true → g.isAccepted = true →
    f.portCode = g.portCode → f.shipClass = noneText → g.shipClass = noneText

instance (facts : List (Fact F)) : Decidable (Unmixed facts) :=
  inferInstanceAs (Decidable (∀ f ∈ facts, ∀ g ∈ facts, f.isAccepted = true → g.isAccepted = true →
    f.portCode = g.portCode → f.shipClass = noneText → g.shipClass = noneText))

/-- **The rows of the calls of a port** stand in one order. -/
theorem sortBy_calls_perm {facts facts' : List (Fact F)} (hmixed : Unmixed facts)
    (h : facts.Perm facts') (port : Option Text) :
    sortBy segmentKey ((callObservations (facts.filter Fact.isAccepted)).filter fun o =>
        o.portCode = port) =
      sortBy segmentKey ((callObservations (facts'.filter Fact.isAccepted)).filter fun o =>
        o.portCode = port) := by
  cases port with
  | none =>
    have hnil : ∀ accepted : List (Fact F),
        (callObservations accepted).filter (fun o => o.portCode = none) = [] := by
      intro accepted
      refine List.filter_eq_nil_iff.2 fun o ho => ?_
      obtain ⟨f, -, hport, -⟩ := exists_fact_of_observed ho
      simp [hport]
    rw [hnil, hnil]
  | some port =>
    rw [callObservations_filter, callObservations_filter]
    have hperm := (h.filter Fact.isAccepted).filter fun f => f.portCode = port
    have hmem : ∀ f ∈ (facts.filter Fact.isAccepted).filter (fun f => f.portCode = port),
        f ∈ facts ∧ f.isAccepted = true ∧ f.portCode = port := by
      intro f hf
      simp only [List.mem_filter, decide_eq_true_eq, and_assoc] at hf
      exact hf
    by_cases hnone : ∃ f ∈ (facts.filter Fact.isAccepted).filter (fun f => f.portCode = port),
        f.shipClass = noneText
    · obtain ⟨f, hf, hclass⟩ := hnone
      obtain ⟨hf, haccepted, hport⟩ := hmem f hf
      refine congrArg _ (callObservations_of_constant hperm [(port, noneText), (port, none)]
        fun g hg => ?_)
      obtain ⟨hg, hgaccepted, hgport⟩ := hmem g hg
      have hgclass := hmixed f hf g hg haccepted hgaccepted (hport.trans hgport.symm) hclass
      rw [countedUnder, hgport, hgclass]
      rfl
    · exact sortBy_segmentKey_perm hperm (fun f hf => (hmem f hf).2.2)
        fun f hf hclass => hnone ⟨f, hf, hclass⟩

end Counts

/-! ## Where a run fails -/

section Failure

/-- A booking whose counters are refused. -/
def BadCounters (b : Booking ℚ) : Prop :=
  ∃ booked offered, b.bookedSlots = some booked ∧ b.offeredSlots = some offered ∧
    (offered ≤ 0 ∨ booked < 0)

variable {facts : List (Fact ℚ)} {gateScans : List GateScan} {bookings : List (Booking ℚ)}

/-- The counters of a booking are read unless they are bad. -/
theorem slotCounters_eq_ok (b : Booking ℚ) : (∃ slots, slotCounters b = .ok slots) ↔ ¬BadCounters b := by
  unfold slotCounters BadCounters
  cases hb : b.bookedSlots with
  | none => simp
  | some booked =>
    cases ho : b.offeredSlots with
    | none => simp
    | some offered =>
      have hle : (le offered (ofInt 0) || lt booked (ofInt 0)) = true ↔ offered ≤ 0 ∨ booked < 0 := by
        simp [le, lt, eq, ofInt, le_iff_lt_or_eq]
      by_cases hbad : offered ≤ 0 ∨ booked < 0
      · simp [hle, hbad]
      · simp [hle, hbad]

/-- The slots offered at a port are more than none. -/
theorem sum_offered_pos {slots : List (ℚ × ℚ)} (hne : slots ≠ []) (hpos : ∀ s ∈ slots, 0 < s.2) :
    0 < sum (slots.map Prod.snd) := by
  rw [sum_rat]
  refine List.sum_pos _ (fun x hx => ?_) (by simpa using hne)
  obtain ⟨s, hs, rfl⟩ := List.mem_map.1 hx
  exact hpos s hs

/-- Some slots are offered where counters are read. -/
theorem offered_pos {slots : List (Option (Option Text × ℚ × ℚ))} {port : Option Text}
    {counters : ℚ × ℚ} (h : collect (bookings.map slotCounters) = .ok slots)
    (hmem : (port, counters) ∈ slots.reduceOption) : 0 < counters.2 := by
  rw [List.reduceOption_mem_iff] at hmem
  obtain ⟨b, -, hslot⟩ := List.mem_map.1 (mem_of_collect h hmem)
  unfold slotCounters at hslot
  split at hslot
  · obtain ⟨hgood, hslot⟩ := guard_eq_ok.1 hslot
    cases hslot
    simp [le, lt, eq, ofInt, not_or] at hgood
    exact lt_of_le_of_ne hgood.1.1 (Ne.symm hgood.1.2)
  · cases hslot

/-- Figures of ports succeed where the figure does on what a port has. -/
theorem portObservations_succeeds {β : Type} {percentiles : List (Option Text)}
    {figure : Option Text → List β → Except PyError ℚ} {ps : List (Option Text × β)}
    (h : ∀ percentile ∈ percentiles, ∀ port, Dict.valuesOf port ps ≠ [] →
      ∃ x, figure percentile (Dict.valuesOf port ps) = .ok x) :
    ∃ l, portObservations percentiles figure (Dict.gather ps) = .ok l := by
  rw [portObservations_eq]
  refine exists_collect_map fun q hq => ?_
  obtain ⟨⟨port, values⟩, hentry, hq⟩ := List.mem_flatMap.1 hq
  obtain ⟨percentile, hpercentile, rfl⟩ := List.mem_map.1 hq
  obtain ⟨rfl, hne⟩ := Dict.mem_gather.1 (mem_sortBy.1 hentry)
  obtain ⟨x, hx⟩ := h percentile hpercentile port hne
  exact ⟨_, bind_eq_ok.2 ⟨x, hx, rfl⟩⟩

/-- A quantile figure of some values is there. -/
theorem quantileFigure_eq_ok {values : List ℚ} (percentile : Option Text) (h : values ≠ []) :
    ∃ x, quantileFigure percentile values = .ok x := by
  obtain ⟨q, hq⟩ : ∃ q, percentileLinear values
      (if percentile = some p50 then half else nineTenths) = .ok q := by
    split_ifs
    · exact percentileLinear_eq_ok h (by rw [half_eq]; norm_num) (by rw [half_eq]; norm_num)
    · exact percentileLinear_eq_ok h (by rw [nineTenths_eq]; norm_num) (by rw [nineTenths_eq]; norm_num)
  unfold quantileFigure
  rw [hq]
  exact ⟨_, rfl⟩

/-- **A run fails at a booking's counters** and nowhere else. -/
theorem computeKpiObservations_succeeds (facts : List (Fact ℚ)) (gateScans : List GateScan) :
    (∃ observations, computeKpiObservations facts gateScans bookings = .ok observations) ↔
      ∀ b ∈ bookings, ¬BadCounters b := by
  constructor
  · rintro ⟨observations, h⟩ b hb
    obtain ⟨_, _, _, _, slots, _, _, -, -, -, -, hslots, -⟩ := computeKpiObservations_eq_ok h
    rw [collect_eq_ok, List.forall₂_map_left_iff] at hslots
    obtain ⟨slot, -, hslot⟩ := exists_of_forall₂ hslots.flip hb
    exact (slotCounters_eq_ok b).1 ⟨slot, hslot⟩
  · intro hgood
    obtain ⟨slots, hslots⟩ := exists_collect_map fun b hb => (slotCounters_eq_ok b).2 (hgood b hb)
    have hquantiles : ∀ (percentiles : List (Option Text)) (ps : List (Option Text × ℚ)),
        ∃ l, portObservations percentiles quantileFigure (Dict.gather ps) = .ok l := fun _ _ =>
      portObservations_succeeds fun percentile _ _ hne => quantileFigure_eq_ok percentile hne
    obtain ⟨turnaround, h₁⟩ : ∃ l, portObservations [some p50, some p90] quantileFigure
        (byPort (fun f => hoursBetween f.arrivedAt f.departedAt) (facts.filter Fact.isAccepted)) =
          .ok l := hquantiles _ _
    obtain ⟨waiting, h₂⟩ : ∃ l, portObservations [some p50, some p90] quantileFigure
        (byPort (fun f => hoursBetween f.arrivedAt f.berthedAt) (facts.filter Fact.isAccepted)) =
          .ok l := hquantiles _ _
    obtain ⟨throughput, h₃⟩ : ∃ l, portObservations [none] totalFigure
        (byPort Fact.declaredTonnage (facts.filter Fact.isAccepted)) = .ok l :=
      portObservations_succeeds fun _ _ _ _ => ⟨_, rfl⟩
    obtain ⟨gates, h₄⟩ : ∃ l, portObservations [some p50] quantileFigure
        (gateDurationsMinutes gateScans) = .ok l := hquantiles _ _
    obtain ⟨leads, h₆⟩ := hquantiles [some p50] (bookings.map fun b => (b.portCode, b.leadTimeHours))
    obtain ⟨utilisation, h₇⟩ : ∃ l, portObservations [none] utilisationFigure
        (Dict.gather slots.reduceOption) = .ok l := by
      refine portObservations_succeeds fun _ _ port hne => ?_
      have hpos := sum_offered_pos hne fun s hs => offered_pos hslots (Dict.mem_valuesOf.1 hs)
      have hdivide : eq (sum ((Dict.valuesOf port slots.reduceOption).map Prod.snd)) (ofInt 0) =
          false := by
        simpa [eq, ofInt] using hpos.ne'
      unfold utilisationFigure divide
      rw [if_neg (by rw [hdivide]; decide)]
      exact ⟨_, rfl⟩
    exact ⟨_, bind_eq_ok.2 ⟨turnaround, h₁, bind_eq_ok.2 ⟨waiting, h₂, bind_eq_ok.2 ⟨throughput, h₃,
      bind_eq_ok.2 ⟨gates, h₄, bind_eq_ok.2 ⟨slots, hslots, bind_eq_ok.2 ⟨leads, h₆,
        bind_eq_ok.2 ⟨utilisation, h₇, rfl⟩⟩⟩⟩⟩⟩⟩⟩

end Failure

/-! ## All figures -/

section Computed

variable {facts facts' : List (Fact ℚ)} {gateScans gateScans' : List GateScan}
  {bookings bookings' : List (Booking ℚ)} {observations observations' : Members (List (Observation ℚ))}

/-- A quantile figure does not depend on the order of the values. -/
theorem quantileFigure_perm (percentile : Option Text) (values values' : List ℚ)
    (h : values.Perm values') : quantileFigure percentile values = quantileFigure percentile values' := by
  rw [quantileFigure, quantileFigure, percentileLinear_perm h]

/-- A total does not depend on the order of the values. -/
theorem totalFigure_perm (percentile : Option Text) (values values' : List ℚ)
    (h : values.Perm values') : totalFigure percentile values = totalFigure percentile values' := by
  rw [totalFigure, totalFigure, sum_perm h]

/-- A utilisation does not depend on the order of the slots. -/
theorem utilisationFigure_perm (percentile : Option Text) (slots slots' : List (ℚ × ℚ))
    (h : slots.Perm slots') : utilisationFigure percentile slots = utilisationFigure percentile slots' := by
  rw [utilisationFigure, utilisationFigure, sum_perm (h.map _), sum_perm (h.map _)]

/-- Scans with distinct ids make the same turnarounds in any order. -/
theorem gatePairs_perm_of_perm (hids : (gateScans.map GateScan.eventId).Nodup)
    (h : gateScans.Perm gateScans') : (gatePairs gateScans).Perm (gatePairs gateScans') := by
  have hhistory : ∀ key, history gateScans key = history gateScans' key := by
    intro key
    refine sortBy_perm (h.filter _) ?_
    have hsub : ((gateScans.filter fun s => s.key = key).map GateScan.eventId).Nodup :=
      hids.sublist (List.filter_sublist.map _)
    refine hsub.of_map.map_on fun s hs s' hs' horder => ?_
    exact List.inj_on_of_nodup_map hsub hs hs'
      (congrArg (fun o : ℤ ×ₗ Text => (ofLex o).2) horder)
  have hvisits : (visits gateScans).Perm (visits gateScans') := by
    rw [visits, visits]
    simp only [hhistory]
    exact ((h.map GateScan.key).dedup).flatMap_right _
  exact (gatePairs_perm gateScans).trans (hvisits.trans (gatePairs_perm gateScans').symm)

/-- The counters of the bookings, in any order. -/
theorem slots_perm {slots slots' : List (Option (Option Text × ℚ × ℚ))} (h : bookings.Perm bookings')
    (hslots : collect (bookings.map slotCounters) = .ok slots)
    (hslots' : collect (bookings'.map slotCounters) = .ok slots') : slots.Perm slots' := by
  have hcounters : ∀ {bookings : List (Booking ℚ)} {slots},
      collect (bookings.map slotCounters) = .ok slots →
        slots = bookings.map fun b => (slotCounters b).toOption.getD none := by
    intro bookings slots hslots
    have hok : ∀ b ∈ bookings, slotCounters b = .ok ((slotCounters b).toOption.getD none) := by
      intro b hb
      rw [collect_eq_ok, List.forall₂_map_left_iff] at hslots
      obtain ⟨slot, -, hslot⟩ := exists_of_forall₂ hslots.flip hb
      rw [hslot]
      rfl
    exact Except.ok.inj (hslots.symm.trans (collect_map_eq_ok hok))
  rw [hcounters hslots, hcounters hslots']
  exact h.map _

/-- What is said of all figures is said of each. -/
theorem getD_of_forall₂ {R : List (Observation ℚ) → List (Observation ℚ) → Prop} (hnil : R [] [])
    (h : List.Forall₂ (fun figure figure' => figure.1 = figure'.1 ∧ R figure.2 figure'.2)
      observations observations') (kpiId : Text) :
    R ((observations.get kpiId).getD []) ((observations'.get kpiId).getD []) := by
  induction h with
  | nil => exact hnil
  | @cons figure figure' _ _ hfigure _ ih =>
    obtain ⟨id, l⟩ := figure
    obtain ⟨id', l'⟩ := figure'
    obtain ⟨rfl, hl⟩ := hfigure
    by_cases hid : id = kpiId
    · simpa [Members.get, hid] using hl
    · have hne : (kpiId == id) = false := beq_eq_false_iff_ne.2 (Ne.symm hid)
      simpa [Members.get, List.lookup_cons, hne] using ih

/-- **What is observed at a port, in the order of its rows**, does not
depend on the order of the records. -/
theorem sorted_observed_perm (hmixed : Unmixed facts) (hids : (gateScans.map GateScan.eventId).Nodup)
    (hfacts : facts.Perm facts') (hscans : gateScans.Perm gateScans')
    (hbookings : bookings.Perm bookings')
    (h : computeKpiObservations facts gateScans bookings = .ok observations)
    (h' : computeKpiObservations facts' gateScans' bookings' = .ok observations')
    (d : KpiDefinition) (port : Option Text) :
    sortBy segmentKey (observedAt observations d port) =
      sortBy segmentKey (observedAt observations' d port) := by
  obtain ⟨_, _, _, _, slots, _, _, h₁, h₂, h₃, h₄, hslots, h₆, h₇, rfl⟩ :=
    computeKpiObservations_eq_ok h
  obtain ⟨_, _, _, _, slots', _, _, h₁', h₂', h₃', h₄', hslots', h₆', h₇', rfl⟩ :=
    computeKpiObservations_eq_ok h'
  have haccepted := hfacts.filter Fact.isAccepted
  have hpairs := gatePairs_perm_of_perm hids hscans
  refine getD_of_forall₂ (R := fun l l' => sortBy segmentKey (l.filter fun o => o.portCode = port) =
    sortBy segmentKey (l'.filter fun o => o.portCode = port)) rfl ?_ d.kpiId
  have hport : ∀ {β : Type} {percentiles : List (Option Text)}
      {figure : Option Text → List β → Except PyError ℚ} {ps ps' : List (Option Text × β)}
      {l l' : List (Observation ℚ)}, ps.Perm ps' →
      (∀ percentile values values', List.Perm values values' →
        figure percentile values = figure percentile values') →
      portObservations percentiles figure (Dict.gather ps) = .ok l →
      portObservations percentiles figure (Dict.gather ps') = .ok l' →
      sortBy segmentKey (l.filter fun o => o.portCode = port) =
        sortBy segmentKey (l'.filter fun o => o.portCode = port) := fun hps hfigure hl hl' =>
    congrArg _ (observations_of_port_perm hps hfigure hl hl' port)
  refine .cons ⟨rfl, sortBy_calls_perm hmixed hfacts port⟩ (.cons ⟨rfl, ?_⟩ (.cons ⟨rfl, ?_⟩
    (.cons ⟨rfl, ?_⟩ (.cons ⟨rfl, ?_⟩ (.cons ⟨rfl, ?_⟩ (.cons ⟨rfl, ?_⟩ .nil))))))
  · exact hport (haccepted.filterMap _) quantileFigure_perm h₁ h₁'
  · exact hport (haccepted.filterMap _) quantileFigure_perm h₂ h₂'
  · exact hport (haccepted.filterMap _) totalFigure_perm h₃ h₃'
  · exact hport ((hpairs.filter _).map _) quantileFigure_perm h₄ h₄'
  · exact hport (hbookings.map _) quantileFigure_perm h₆ h₆'
  · have hslotsPerm := slots_perm hbookings hslots hslots'
    exact hport (hslotsPerm.filterMap id) utilisationFigure_perm h₇ h₇'

end Computed

/-! ## The rows -/

section Rows

variable {run : RunContext} {facts facts' : List (Fact ℚ)} {gateScans gateScans' : List GateScan}
  {bookings bookings' : List (Booking ℚ)} {observations observations' : Members (List (Observation ℚ))}

/-- The rows over what is computed of the records of a period. -/
def emittedRows (run : RunContext) (facts : List (Fact ℚ)) (gateScans : List GateScan)
    (bookings : List (Booking ℚ)) : Except PyError (List (ValueRow ℚ)) := do
  let observations ← computeKpiObservations facts gateScans bookings
  return emitValueRows run observations (discoverPorts facts gateScans bookings)

/-- The ports discovered do not depend on the order of the lists. -/
theorem discoverPorts_perm (hfacts : facts.Perm facts') (hscans : gateScans.Perm gateScans')
    (hbookings : bookings.Perm bookings') :
    discoverPorts facts gateScans bookings = discoverPorts facts' gateScans' bookings' := by
  have hports : (portCodes facts gateScans bookings).Perm (portCodes facts' gateScans' bookings') :=
    ((hfacts.map _).append (hscans.filterMap _)).append (hbookings.filterMap _)
  have hsorted : (portCodes facts gateScans bookings).dedup.insertionSort (· ≤ ·) =
      (portCodes facts' gateScans' bookings').dedup.insertionSort (· ≤ ·) :=
    insertionSort_perm hports.dedup
  rw [discoverPorts, discoverPorts, hsorted]

/-- A figure's rows at a port are read off its sorted observations. -/
theorem rowsAt_congr {d : KpiDefinition} {port : Option Text}
    (h : sortBy segmentKey (observedAt observations d port) =
      sortBy segmentKey (observedAt observations' d port)) :
    rowsAt run observations d port = rowsAt run observations' d port := by
  cases hgap : d.gap with
  | some gap => rw [rowsAt_gap hgap, rowsAt_gap hgap]
  | none =>
    have hnil : observedAt observations d port = [] ↔ observedAt observations' d port = [] := by
      rw [← List.length_eq_zero_iff, ← List.length_eq_zero_iff, ← length_sortBy segmentKey, h,
        length_sortBy]
    by_cases ho : observedAt observations d port = []
    · rw [rowsAt_none hgap ho, rowsAt_none hgap (hnil.1 ho)]
    · rw [rowsAt_some hgap ho, rowsAt_some hgap fun h => ho (hnil.2 h), h]

/-- The rows are refused exactly where a booking has bad counters. -/
theorem emittedRows_eq_none : (emittedRows run facts gateScans bookings).toOption = none ↔
    ∃ b ∈ bookings, BadCounters b := by
  have hsome : (emittedRows run facts gateScans bookings).toOption ≠ none ↔
      ∃ observations, computeKpiObservations facts gateScans bookings = .ok observations := by
    rw [Option.ne_none_iff_exists']
    constructor
    · rintro ⟨rows, hrows⟩
      obtain ⟨observations, h, -⟩ := bind_eq_ok.1 (toOption_eq_some.1 hrows)
      exact ⟨observations, h⟩
    · rintro ⟨observations, h⟩
      exact ⟨_, toOption_eq_some.2 (bind_eq_ok.2 ⟨observations, h, rfl⟩)⟩
  rw [← not_iff_not, ← ne_eq, hsome, computeKpiObservations_succeeds]
  simp only [not_exists, not_and]

/-- **Records in another order make the same rows** where no port mixes the
class `None` with others. -/
theorem emittedRows_perm (hmixed : Unmixed facts) (hids : (gateScans.map GateScan.eventId).Nodup)
    (hfacts : facts.Perm facts') (hscans : gateScans.Perm gateScans')
    (hbookings : bookings.Perm bookings') :
    (emittedRows run facts gateScans bookings).toOption =
      (emittedRows run facts' gateScans' bookings').toOption := by
  by_cases hbad : ∃ b ∈ bookings, BadCounters b
  · rw [emittedRows_eq_none.2 hbad, emittedRows_eq_none.2]
    obtain ⟨b, hb, hbad⟩ := hbad
    exact ⟨b, hbookings.mem_iff.1 hb, hbad⟩
  · have hgood : ∀ b ∈ bookings, ¬BadCounters b := fun b hb h => hbad ⟨b, hb, h⟩
    obtain ⟨observations, h⟩ := (computeKpiObservations_succeeds facts gateScans).2 hgood
    obtain ⟨observations', h'⟩ := (computeKpiObservations_succeeds facts' gateScans').2
      fun b hb => hgood b (hbookings.mem_iff.2 hb)
    rw [emittedRows, emittedRows, h, h', ok_bind, ok_bind,
      ← discoverPorts_perm hfacts hscans hbookings, emitValueRows, emitValueRows]
    refine congrArg _ (congrArg _ (List.flatMap_congr fun d _ => List.flatMap_congr fun port _ => ?_))
    exact rowsAt_congr (sorted_observed_perm hmixed hids hfacts hscans hbookings h h' d port)

/-- The rows of a port's calls tell which of its counts came first. -/
theorem head?_of_emittedRows {port : Text} {rows : List (ValueRow ℚ)}
    (h : (emittedRows run facts gateScans bookings).toOption = some rows)
    (hport : port ∈ portCodes facts gateScans bookings)
    (hne : ∃ f ∈ facts, f.isAccepted = true ∧ f.portCode = port) :
    (((rows.filter fun r => r.kpiId = vesselCalls.kpiId ∧ r.portCode = some port).filter fun r =>
        readsNone r.shipClass).map ValueRow.shipClass).head? =
      ((((facts.filter Fact.isAccepted).filter fun f => f.portCode = port).flatMap
        countedUnder).filter fun key => readsNone key.2).head?.map Prod.snd := by
  obtain ⟨observations, hobservations, h⟩ := bind_eq_ok.1 (toOption_eq_some.1 h)
  cases h
  have hobserved : observedAt observations vesselCalls (some port) =
      callObservations ((facts.filter Fact.isAccepted).filter fun f => f.portCode = port) := by
    rw [observedAt, vesselCalls_of_computed hobservations]
    exact callObservations_filter _ port
  have hcalls : ∀ f ∈ (facts.filter Fact.isAccepted).filter (fun f => f.portCode = port),
      f.portCode = port := fun f hf => of_decide_eq_true (List.mem_filter.1 hf).2
  have hsome : observedAt observations vesselCalls (some port) ≠ [] := by
    obtain ⟨f, hf, haccepted, hfport⟩ := hne
    have hmem : f ∈ (facts.filter Fact.isAccepted).filter (fun f => f.portCode = port) :=
      List.mem_filter.2 ⟨List.mem_filter.2 ⟨hf, haccepted⟩, decide_eq_true hfport⟩
    rw [hobserved]
    refine List.ne_nil_of_mem (mem_callObservations.2 ⟨f.portCode, f.shipClass, _, rfl, ?_, rfl⟩)
    exact count_countedUnder hmem (mem_countedUnder.2 ⟨rfl, Or.inl rfl⟩)
  have hsorted : ((callObservations ((facts.filter Fact.isAccepted).filter fun f =>
      f.portCode = port)).filter fun o => readsNone o.shipClass).Pairwise fun o o' =>
        segmentKey o ≤ segmentKey o' := by
    refine List.pairwise_of_forall_mem_list fun o ho o' ho' => le_of_eq ?_
    obtain ⟨ho, hreads⟩ := List.mem_filter.1 ho
    obtain ⟨ho', hreads'⟩ := List.mem_filter.1 ho'
    obtain ⟨_, -, -, -, hpercentile⟩ := exists_fact_of_observed ho
    obtain ⟨_, -, -, -, hpercentile'⟩ := exists_fact_of_observed ho'
    rw [segmentKey, segmentKey, of_decide_eq_true hreads, of_decide_eq_true hreads', hpercentile,
      hpercentile']
  rw [filter_emitValueRows nodup_discoverPorts vesselCalls_mem (mem_discoverPorts.2 hport),
    ← head?_readsNone hcalls, rowsAt_some rfl hsome, hobserved, List.filter_map, List.map_map]
  have hfilter := sortBy_filter segmentKey (callObservations ((facts.filter Fact.isAccepted).filter
    fun f => f.portCode = port)) fun o => readsNone o.shipClass
  rw [sortBy_of_pairwise hsorted] at hfilter
  exact congrArg (fun l : List (Observation ℚ) => (l.map Observation.shipClass).head?) hfilter

/-- Where a port mixes the class `None` with others, two orders of its calls
make two orders of rows. -/
theorem unmixed_of_perm (hgood : ∀ b ∈ bookings, ¬BadCounters b)
    (h : ∀ facts', facts.Perm facts' → (emittedRows run facts' gateScans bookings).toOption =
      (emittedRows run facts gateScans bookings).toOption) : Unmixed facts := by
  intro f hf g hg hfaccepted hgaccepted hport hclass
  by_contra hgclass
  have hsome : (emittedRows run facts gateScans bookings).toOption ≠ none := fun hnone => by
    obtain ⟨b, hb, hbad⟩ := emittedRows_eq_none.1 hnone
    exact hgood b hb hbad
  obtain ⟨rows, hrows⟩ := Option.ne_none_iff_exists'.1 hsome
  -- the class counted first, with a call of the port moved to the front
  have hfront : ∀ c ∈ facts, c.isAccepted = true → c.portCode = f.portCode →
      (((rows.filter fun r => r.kpiId = vesselCalls.kpiId ∧ r.portCode = some f.portCode).filter
        fun r => readsNone r.shipClass).map ValueRow.shipClass).head? =
          some (if c.shipClass = noneText then noneText else none) := by
    intro c hc haccepted hcport
    obtain ⟨s, t, rfl⟩ := List.append_of_mem hc
    have hperm : (s ++ c :: t).Perm (c :: (s ++ t)) := List.perm_middle
    have hrows' := (h _ hperm).trans hrows
    rw [head?_of_emittedRows hrows' (List.mem_append_left _ (List.mem_append_left _
      (List.mem_map.2 ⟨c, List.mem_cons_self, hcport⟩))) ⟨c, List.mem_cons_self, haccepted, hcport⟩,
      List.filter_cons_of_pos haccepted, List.filter_cons_of_pos (by simpa using hcport),
      List.flatMap_cons, List.filter_append]
    unfold countedUnder
    cases hshipClass : c.shipClass with
    | none => simp [readsNone, strOf, noneText]
    | some shipClass =>
      by_cases hnone : shipClass = lit "None"
      · simp [readsNone, strOf, noneText, hnone]
      · simp [readsNone, strOf, noneText, hnone]
  have hf' := hfront f hf hfaccepted rfl
  rw [hfront g hg hgaccepted hport.symm, if_neg hgclass, if_pos hclass] at hf'
  exact absurd hf' (by decide)

/-- **Order independence**, over exact rationals: where some booking's
counters are refused, and where no port mixes accepted calls of the class
`None` with others. -/
theorem emittedRows_perm_iff (run : RunContext) (hids : (gateScans.map GateScan.eventId).Nodup) :
    (∀ facts' gateScans' bookings', facts.Perm facts' → gateScans.Perm gateScans' →
      bookings.Perm bookings' → (emittedRows run facts' gateScans' bookings').toOption =
        (emittedRows run facts gateScans bookings).toOption) ↔
      (∃ b ∈ bookings, BadCounters b) ∨ Unmixed facts := by
  constructor
  · intro h
    by_cases hbad : ∃ b ∈ bookings, BadCounters b
    · exact Or.inl hbad
    · exact Or.inr (unmixed_of_perm (fun b hb hb' => hbad ⟨b, hb, hb'⟩)
        fun facts' hfacts => h facts' gateScans bookings hfacts (.refl _) (.refl _))
  · rintro (⟨b, hb, hbad⟩ | hmixed) facts' gateScans' bookings' hfacts hscans hbookings
    · rw [emittedRows_eq_none.2 ⟨b, hb, hbad⟩,
        emittedRows_eq_none.2 ⟨b, hbookings.mem_iff.1 hb, hbad⟩]
    · exact (emittedRows_perm hmixed hids hfacts hscans hbookings).symm

end Rows

/-! ## Two calls -/

/-- An accepted call at Lagos, of a ship of some class or none. -/
def callOf (shipClass : Option Text) : Fact ℚ where
  portCallId := lit "call-1"
  portCode := lit "NGLOS"
  vesselRefHashed := none
  shipClass
  status := lit "ACCEPTED"
  arrivedAt := some 1769901600000000
  berthedAt := none
  departedAt := some 1769988000000000
  declaredTonnage := some 500
  sourceEventIdsJson := lit "[]"

/-- The scans of one visit, in either order. -/
theorem emittedRows_perm_visit :
    (emittedRows sampleRun [callOf none] (visitAt (some (lit "NGLOS"))).reverse []).toOption =
      (emittedRows sampleRun [callOf none] (visitAt (some (lit "NGLOS"))) []).toOption :=
  (emittedRows_perm_iff sampleRun (by decide)).2 (Or.inr (by decide)) [callOf none] _ []
    (.refl _) (List.reverse_perm _).symm (.refl _)

/-- **A call of the class `None`** and one without a class, in both orders. -/
theorem emittedRows_swap_none : ∃ facts', [callOf noneText, callOf none].Perm facts' ∧
    (emittedRows sampleRun facts' [] []).toOption ≠
      (emittedRows sampleRun [callOf noneText, callOf none] [] []).toOption := by
  by_contra hall
  have hmixed : Unmixed [callOf noneText, callOf none] := by
    refine @unmixed_of_perm sampleRun _ [] [] (by simp) fun facts' hperm => ?_
    by_contra hne
    exact hall ⟨facts', hperm, hne⟩
  have hclass := hmixed (callOf noneText) (by simp) (callOf none) (by simp) (by decide) (by decide)
    rfl rfl
  exact absurd hclass (by decide)

end PortStatistics

end Lakehouse

import Lakehouse.PortStatistics.Kpi
import Mathlib.Data.List.ReduceOption
/-!
# Gate turnarounds

A truck's visit is a scan in and the scan out that directly follows it at
the terminal. The loop that keeps an open scan finds exactly the visits of
the scans it is given (`gatePairs_perm`); but it is given the scans of one
month, so that over all months every visit is counted once exactly where
none crosses into another month.
-/

namespace Lakehouse

namespace PortStatistics

open Arithmetic

/-! ## Visits -/

/-- A scan in directly followed by a scan out. -/
def visitsOf (l : List GateScan) : List (GateScan × GateScan) :=
  (l.zip l.tail).filter fun p => p.1.direction = .gateIn ∧ p.2.direction = .gateOut

/-- The scans of a truck at a terminal, in order. -/
def history (scans : List GateScan) (key : Text × Text) : List GateScan :=
  sortBy GateScan.order (scans.filter fun s => s.key = key)

/-- **The visits of all trucks.** -/
def visits (scans : List GateScan) : List (GateScan × GateScan) :=
  (scans.map GateScan.key).dedup.flatMap fun key => visitsOf (history scans key)

variable {scans l : List GateScan} {s s' : GateScan} {visit : GateScan × GateScan}

/-- A scan in with a scan out behind it is a visit. -/
theorem visitsOf_cons_cons (s s' : GateScan) (l : List GateScan) : visitsOf (s :: s' :: l) =
    (if s.direction = .gateIn ∧ s'.direction = .gateOut then [(s, s')] else []) ++
      visitsOf (s' :: l) := by
  unfold visitsOf
  rw [List.tail_cons, List.zip_cons_cons, List.filter_cons]
  split_ifs with h₁ h₂ h₂
  · rfl
  · exact absurd (of_decide_eq_true h₁) h₂
  · exact absurd (decide_eq_true h₂) h₁
  · rfl

/-- A scan out begins no visit. -/
theorem visitsOf_cons_out (h : s.direction = .gateOut) (l : List GateScan) :
    visitsOf (s :: l) = visitsOf l := by
  cases l with
  | nil => rfl
  | cons s' l => rw [visitsOf_cons_cons, if_neg (by simp [h]), List.nil_append]

/-- A scan in takes the place of an open one. -/
theorem pairScans_in (h : s.direction = .gateIn) (openIn : Option GateScan) (l : List GateScan) :
    pairScans openIn (s :: l) = pairScans (some s) l := by
  simp [pairScans, h]

/-- A scan out without an open scan in is passed over. -/
theorem pairScans_out_none (h : s.direction = .gateOut) (l : List GateScan) :
    pairScans none (s :: l) = pairScans none l := by
  simp [pairScans, h]

/-- A scan out closes the open scan in. -/
theorem pairScans_out_some (h : s.direction = .gateOut) (openIn : GateScan) (l : List GateScan) :
    pairScans (some openIn) (s :: l) = (openIn, s) :: pairScans none l := by
  simp [pairScans, h]

/-- **The loop finds the visits**, with or without a scan open. -/
theorem pairScans_eq (l : List GateScan) : pairScans none l = visitsOf l ∧
    ∀ s, s.direction = .gateIn → pairScans (some s) l = visitsOf (s :: l) := by
  induction l with
  | nil => exact ⟨rfl, fun _ _ => rfl⟩
  | cons scan l ih =>
    cases hd : scan.direction with
    | gateIn =>
      have hopen : ∀ openIn, pairScans openIn (scan :: l) = visitsOf (scan :: l) := fun openIn => by
        rw [pairScans_in hd]
        exact ih.2 scan hd
      refine ⟨hopen none, fun s _ => ?_⟩
      rw [hopen, visitsOf_cons_cons, if_neg (by simp [hd]), List.nil_append]
    | gateOut =>
      constructor
      · rw [pairScans_out_none hd, visitsOf_cons_out hd]
        exact ih.1
      · intro s hs
        rw [visitsOf_cons_cons, if_pos ⟨hs, hd⟩, visitsOf_cons_out hd, ← ih.1,
          pairScans_out_some hd]
        rfl

/-- **The pairs of the loop are the visits**, key by key for any keys that
hold the scans'. -/
theorem gatePairs_perm_of_keys {keys : List (Text × Text)} (hkeys : keys.Nodup)
    (hmem : ∀ s ∈ scans, s.key ∈ keys) :
    (gatePairs scans).Perm (keys.flatMap fun key => visitsOf (history scans key)) := by
  have hvalues : ∀ key, Dict.valuesOf key (scans.map fun s => (s.key, s)) =
      scans.filter fun s => s.key = key := by
    intro key
    rw [Dict.valuesOf, List.filter_map, List.map_map]
    exact List.map_id _
  have hmem' : ∀ p ∈ scans.map (fun s => (s.key, s)), p.1 ∈ keys := by simpa using hmem
  have hperm := Dict.flatMap_gather_perm hkeys hmem'
    (fun l => pairScans none (sortBy GateScan.order l)) rfl
  simp only [hvalues, (pairScans_eq _).1] at hperm
  simpa only [gatePairs, (pairScans_eq _).1, history] using hperm

/-- **The pairs are the visits.** -/
theorem gatePairs_perm (scans : List GateScan) : (gatePairs scans).Perm (visits scans) :=
  gatePairs_perm_of_keys (List.nodup_dedup _) fun _ hs =>
    List.mem_dedup.2 (List.mem_map_of_mem hs)

/-- The visits paired. -/
theorem mem_gatePairs : visit ∈ gatePairs scans ↔ visit ∈ visits scans := (gatePairs_perm scans).mem_iff

/-- A visit ends no earlier than it starts. -/
theorem le_of_mem_visitsOf (hl : l.Pairwise fun s s' => s.order ≤ s'.order) :
    ∀ visit ∈ visitsOf l, visit.1.occurredAt ≤ visit.2.occurredAt := by
  intro visit h
  have hzip := (List.mem_filter.1 h).1
  have horder : visit.1.order ≤ visit.2.order := by
    induction l with
    | nil => cases hzip
    | cons s l ih =>
      cases l with
      | nil => cases hzip
      | cons s' l =>
        rw [List.pairwise_cons] at hl
        obtain rfl | hzip := List.mem_cons.1 hzip
        · exact hl.1 s' List.mem_cons_self
        · exact ih hl.2 (List.mem_filter.2 ⟨hzip, (List.mem_filter.1 h).2⟩) hzip
  obtain hlt | ⟨heq, -⟩ := Prod.Lex.le_iff.1 horder
  · exact hlt.le
  · exact heq.le

/-- A visit is one of some container's history. -/
theorem mem_visits : visit ∈ visits scans ↔ ∃ key, visit ∈ visitsOf (history scans key) := by
  rw [visits, List.mem_flatMap]
  refine ⟨fun ⟨key, _, h⟩ => ⟨key, h⟩, fun ⟨key, h⟩ => ⟨key, ?_, h⟩⟩
  cases hh : history scans key with
  | nil =>
    rw [hh] at h
    cases h
  | cons s l =>
    have hs : s ∈ history scans key := hh ▸ List.mem_cons_self
    obtain ⟨hs, hkey⟩ := List.mem_filter.1 (mem_sortBy.1 hs)
    exact List.mem_dedup.2 (List.mem_map.2 ⟨s, hs, of_decide_eq_true hkey⟩)

section

variable {F : Type} [Arithmetic F] [LawfulDurations F]

/-- A visit does not last less than no time. -/
theorem minutes_nonneg (h : visit ∈ gatePairs scans) : le (ofInt 0) (minutes visit : F) = true := by
  obtain ⟨key, hkey⟩ := mem_visits.1 (mem_gatePairs.1 h)
  have hle := le_of_mem_visitsOf (pairwise_sortBy _ _) visit hkey
  exact LawfulDurations.duration_nonneg (n := 60) (by omega) (by decide) (by decide)

/-- The durations of a list of scans are the minutes of its visits. -/
theorem flatMap_gateDurations (scans : List GateScan) :
    ((gateDurationsMinutes scans : Dict _ (List F)).flatMap Prod.snd).Perm
      ((gatePairs scans).map minutes) := by
  have hfilter : (gatePairs scans).filter (fun visit => le (ofInt 0) (minutes visit : F)) =
      gatePairs scans := List.filter_eq_self.2 fun _ h => minutes_nonneg h
  refine (Dict.flatMap_gather _).trans ?_
  rw [hfilter, List.map_map]
  exact .refl _

end

/-! ## The visits of a month -/

/-- A scan lies in a period. -/
def scanIn (start stop : ℤ) (s : GateScan) : Bool := inPeriod s.occurredAt start stop

/-- A visit does. -/
def visitIn (start stop : ℤ) (visit : GateScan × GateScan) : Bool :=
  scanIn start stop visit.1 && scanIn start stop visit.2

/-- **Cutting a history at a period** keeps the visits that lie in it: what
is left of the history is one stretch of it. -/
theorem visitsOf_filter (start stop : ℤ) (hl : l.Pairwise fun s s' => s.order ≤ s'.order) :
    visitsOf (l.filter (scanIn start stop)) =
      (visitsOf l).filter (visitIn start stop) := by
  induction l with
  | nil => rfl
  | cons s l ih =>
    rw [List.pairwise_cons] at hl
    have ih := ih hl.2
    by_cases hs : scanIn start stop s = true
    · rw [List.filter_cons_of_pos hs]
      cases l with
      | nil => rfl
      | cons s' l =>
        by_cases hs' : scanIn start stop s' = true
        · rw [List.filter_cons_of_pos hs'] at ih ⊢
          rw [visitsOf_cons_cons, visitsOf_cons_cons, List.filter_append, ih]
          split_ifs
          · rw [List.filter_singleton, visitIn, hs, hs']
            rfl
          · rfl
        · -- The scans from `s'` on lie behind the period.
          have hbehind : (s' :: l).filter (scanIn start stop) = [] := by
            refine List.filter_eq_nil_iff.2 fun u hu => ?_
            have htime : ∀ {s u : GateScan}, s.order ≤ u.order → s.occurredAt ≤ u.occurredAt := by
              intro s u h
              obtain hlt | ⟨heq, -⟩ := Prod.Lex.le_iff.1 h
              · exact hlt.le
              · exact heq.le
            have hss' := htime (hl.1 s' List.mem_cons_self)
            have hs'u : s'.occurredAt ≤ u.occurredAt := by
              obtain rfl | hu := List.mem_cons.1 hu
              · exact le_rfl
              · exact htime ((List.pairwise_cons.1 hl.2).1 u hu)
            simp only [scanIn, inPeriod_iff] at hs hs' ⊢
            omega
          rw [hbehind] at ih ⊢
          rw [visitsOf_cons_cons, List.filter_append, ← ih]
          split_ifs
          · rw [List.filter_singleton, visitIn, Bool.eq_false_of_not_eq_true hs', Bool.and_false]
            rfl
          · rfl
    · rw [List.filter_cons_of_neg hs, ih]
      cases l with
      | nil => rfl
      | cons s' l =>
        rw [visitsOf_cons_cons, List.filter_append]
        split_ifs
        · rw [List.filter_singleton, visitIn, Bool.eq_false_of_not_eq_true hs, Bool.false_and]
          rfl
        · rfl

/-- Pairing the scans of a span gives the visits that are within it. -/
theorem gatePairs_filter (start stop : ℤ) (scans : List GateScan) :
    (gatePairs (scans.filter (scanIn start stop))).Perm
      ((visits scans).filter (visitIn start stop)) := by
  have hmem : ∀ s ∈ scans.filter (scanIn start stop), s.key ∈ (scans.map GateScan.key).dedup :=
    fun s hs => List.mem_dedup.2 (List.mem_map_of_mem (List.mem_filter.1 hs).1)
  have hkeys := gatePairs_perm_of_keys (List.nodup_dedup _) hmem
  refine hkeys.trans (.of_eq ?_)
  rw [visits, List.filter_flatMap]
  refine List.flatMap_congr fun key _ => ?_
  rw [history, history, ← visitsOf_filter start stop (pairwise_sortBy _ _), sortBy_filter,
    List.filter_comm]

/-! ## All months -/

/-- Sorting out items into disjoint classes keeps those of some class. -/
theorem sum_map_filter {ι α β : Type} {idx : List ι} {q : ι → α → Bool} (f : α → β) (v : Multiset α)
    (hidx : idx.Nodup) (hdisj : ∀ j ∈ idx, ∀ k ∈ idx, ∀ a, q j a = true → q k a = true → j = k) :
    (idx.map fun k => (v.filter fun a => q k a = true).map f).sum =
      (v.filter fun a => ∃ k ∈ idx, q k a = true).map f := by
  induction idx with
  | nil => simp
  | cons k idx ih =>
    rw [List.nodup_cons] at hidx
    have hboth : ∀ a ∈ v, ¬(q k a = true ∧ ∃ j ∈ idx, q j a = true) := by
      rintro a - ⟨hk, j, hj, hja⟩
      exact hidx.1 (hdisj k List.mem_cons_self j (List.mem_cons_of_mem k hj) a hk hja ▸ hj)
    have hadd := Multiset.filter_add_filter (fun a => q k a = true) (fun a => ∃ j ∈ idx, q j a = true) v
    rw [Multiset.filter_eq_nil.2 hboth, Multiset.add_zero] at hadd
    rw [List.map_cons, List.sum_cons, ih hidx.2 fun j hj k hk =>
      hdisj j (List.mem_cons_of_mem _ hj) k (List.mem_cons_of_mem _ hk), ← Multiset.map_add, hadd]
    simp only [List.mem_cons, exists_eq_or_imp]

section

variable {F : Type} [PyFloat F] [PyMath F] (L : Library) {events : List (Row F)} {event : Row F}
  {scan : GateScan}

/-- The scan of a silver event of that type. -/
def decodeGateScan (event : Row F) : Except PyError GateScan := do
  let event ← decodeSilverEvent event
  if event.eventType ≠ gateScanEventType then
    .error (.valueError (lit "not a gate scan"))
  else gateScan event

/-- A silver event is a valid gate scan. -/
def IsGateScan (event : Row F) (scan : GateScan) : Prop := decodeGateScan event = .ok scan

/-- The durations of a period. -/
def periodDurations (events : List (Row F)) (period : Text) : Except PyError (Multiset F) := do
  let (start, stop) ← parsePeriod L period
  let scans ← extractGateScans events start stop
  return ((gateDurationsMinutes scans).flatMap Prod.snd : List F)

omit [PyMath F] in
/-- The scan of an event within a span. -/
theorem gateScanIn_eq (h : IsGateScan event scan) (start stop : ℤ) :
    gateScanIn start stop event = .ok (if scanIn start stop scan then some scan else none) := by
  obtain ⟨e, he, h⟩ := bind_eq_ok.1 h
  obtain ⟨ht, hscan⟩ := guard_eq_ok.1 h
  rw [ne_eq, not_not] at ht
  have hat : scan.occurredAt = e.occurredAt := by
    obtain ⟨truckRef, -, hscan⟩ := bind_eq_ok.1 hscan
    cases truckRef with
    | none => cases hscan
    | some truckRef =>
      obtain ⟨_, -, hscan⟩ := bind_eq_ok.1 hscan
      obtain ⟨_, -, hscan⟩ := bind_eq_ok.1 hscan
      obtain ⟨_, -, hscan⟩ := bind_eq_ok.1 hscan
      cases hscan
      rfl
  unfold gateScanIn
  rw [he, ok_bind, ht, scanIn, hat]
  cases inPeriod e.occurredAt start stop with
  | true => simp [hscan]
  | false => simp

/-- The values kept by a test. -/
theorem reduceOption_map_ite {α : Type} (p : α → Bool) (l : List α) :
    (l.map fun a => if p a then some a else none).reduceOption = l.filter p := by
  induction l with
  | nil => rfl
  | cons a l ih =>
    rw [List.map_cons, List.filter_cons]
    split_ifs
    · rw [List.reduceOption_cons_of_some, ih]
    · rw [List.reduceOption_cons_of_none, ih]

omit [PyMath F] in
/-- **The scans of a period.** -/
theorem extractGateScans_eq (h : List.Forall₂ IsGateScan events scans) (start stop : ℤ) :
    extractGateScans events start stop = .ok (scans.filter (scanIn start stop)) := by
  have hcollect : collect (events.map (gateScanIn start stop)) =
      .ok (scans.map fun scan => if scanIn start stop scan then some scan else none) := by
    rw [collect_eq_ok, List.forall₂_map_left_iff, List.forall₂_map_right_iff]
    exact h.imp fun event scan hscan => gateScanIn_eq hscan start stop
  unfold extractGateScans
  rw [hcollect, ok_bind, pure_eq_ok]
  exact congrArg _ (reduceOption_map_ite _ _)

variable [LawfulDurations F]

/-- **The durations of a month are those of the visits within it.** -/
theorem periodDurations_eq (h : List.Forall₂ IsGateScan events scans) {k : ℕ} (hk : k < monthCount) :
    periodDurations L events (periodText k) = .ok (((visits scans : Multiset _).filter fun visit =>
      visitIn (monthStart k) (monthStart (k + 1)) visit = true).map minutes) := by
  unfold periodDurations
  rw [parsePeriod_periodText hk, ok_bind]
  simp only
  rw [extractGateScans_eq h, ok_bind, pure_eq_ok, Multiset.filter_coe, Multiset.map_coe]
  have hperm := (flatMap_gateDurations (F := F) (scans.filter (scanIn (monthStart k) (monthStart (k + 1))))).trans
    ((gatePairs_filter (monthStart k) (monthStart (k + 1)) scans).map minutes)
  refine congrArg _ ((Multiset.coe_eq_coe.2 hperm).trans ?_)
  simp

/-- **The visits counted**, over all periods together. -/
theorem collect_periodDurations (h : List.Forall₂ IsGateScan events scans) :
    ∃ months, collect (periods.map (periodDurations L events)) = .ok months ∧
      months.sum = ((visits scans : Multiset _).filter fun visit => ∃ k ∈ List.range monthCount,
        visitIn (monthStart k) (monthStart (k + 1)) visit = true).map minutes := by
  refine ⟨(List.range monthCount).map fun k => ((visits scans : Multiset _).filter fun visit =>
    visitIn (monthStart k) (monthStart (k + 1)) visit = true).map minutes, ?_, ?_⟩
  · rw [periods, List.map_map]
    exact collect_map_eq_ok fun k hk => periodDurations_eq L h (List.mem_range.1 hk)
  · refine sum_map_filter minutes _ List.nodup_range fun j _ k _ visit hj hk => ?_
    rw [visitIn, Bool.and_eq_true] at hj hk
    exact month_unique (inPeriod_iff.1 hj.1) (inPeriod_iff.1 hk.1)

omit [PyMath F] in
/-- A visit lies in a month exactly where it does in some period. -/
theorem exists_visitIn_iff {L : Library} (visit : GateScan × GateScan) :
    (∃ k ∈ List.range monthCount, visitIn (monthStart k) (monthStart (k + 1)) visit = true) ↔
      ∃ period start stop, parsePeriod L period = .ok (start, stop) ∧
        scanIn start stop visit.1 = true ∧ scanIn start stop visit.2 = true := by
  constructor
  · rintro ⟨k, hk, hvisit⟩
    rw [visitIn, Bool.and_eq_true] at hvisit
    exact ⟨_, _, _, parsePeriod_periodText (List.mem_range.1 hk), hvisit⟩
  · rintro ⟨period, start, stop, hparse, hvisit⟩
    obtain ⟨-, -, hk, rfl, rfl⟩ := parsePeriod_eq_ok.1 hparse
    exact ⟨_, List.mem_range.2 hk, by rwa [visitIn, Bool.and_eq_true]⟩

/-- Where no turnaround is lost, every visit lies in a period. -/
theorem exists_period_of_counted (h : List.Forall₂ IsGateScan events scans)
    {months : List (Multiset F)} (hmonths : collect (periods.map (periodDurations L events)) = .ok months)
    (hall : months.sum = (visits scans : Multiset _).map minutes) :
    ∀ visit ∈ visits scans, ∃ period start stop, parsePeriod L period = .ok (start, stop) ∧
      scanIn start stop visit.1 = true ∧ scanIn start stop visit.2 = true := by
  obtain ⟨months', hmonths', hsum⟩ := collect_periodDurations L h
  obtain rfl := Except.ok.inj (hmonths.symm.trans hmonths')
  rw [hsum] at hall
  have hcard := congrArg Multiset.card hall
  rw [Multiset.card_map, Multiset.card_map] at hcard
  have hfilter := Multiset.eq_of_le_of_card_le (Multiset.filter_le _ _) hcard.ge
  exact fun visit hvisit =>
    (exists_visitIn_iff visit).1 (Multiset.filter_eq_self.1 hfilter visit hvisit)

/-- **Every turnaround is counted once** exactly where every visit starts and
ends in one period. -/
theorem turnarounds_counted_iff (h : List.Forall₂ IsGateScan events scans) :
    (∃ months, collect (periods.map (periodDurations L events)) = .ok months ∧
        months.sum = (visits scans : Multiset _).map minutes) ↔
      ∀ visit ∈ visits scans, ∃ period start stop, parsePeriod L period = .ok (start, stop) ∧
        scanIn start stop visit.1 = true ∧ scanIn start stop visit.2 = true := by
  constructor
  · rintro ⟨months, hmonths, hall⟩
    exact exists_period_of_counted L h hmonths hall
  · intro hvisits
    obtain ⟨months, hmonths, hsum⟩ := collect_periodDurations L h
    refine ⟨months, hmonths, ?_⟩
    rw [hsum, Multiset.filter_eq_self.2 fun visit hvisit =>
      (exists_visitIn_iff visit).2 (hvisits visit hvisit)]

end

/-! ## Two visits -/

/-- A gate scan of one truck at one terminal, some microseconds after
2026-01-31T23:20Z. -/
def gateEvent (id direction : String) (us : ℤ) : Row Decimal :=
  [("event_id", .text (lit id)), ("event_type", .text gateScanEventType),
    ("occurred_at", .instant (1769901600000000 + us)),
    ("payload_json", .text (lit "\x7b\x22truckRef\x22:\x22LAG-1\x22,\x22direction\x22:\x22" ++
      lit direction ++ lit "\x22\x7d"))]

def gateScanAt (id : String) (direction : Direction) (us : ℤ) : GateScan :=
  ⟨lit "LAG-1", [], none, direction, 1769901600000000 + us, lit id⟩

/-- A visit of half an hour before midnight is counted. -/
theorem turnarounds_counted_evening :
    (∃ months, collect (periods.map (periodDurations Library.ascii
        [gateEvent "scan-1" "in" 0, gateEvent "scan-2" "out" 1800000000])) = .ok months ∧
      months.sum = (visits [gateScanAt "scan-1" .gateIn 0, gateScanAt "scan-2" .gateOut 1800000000] :
        Multiset _).map minutes) := by
  have hin : decodeGateScan (gateEvent "scan-1" "in" 0) = .ok (gateScanAt "scan-1" .gateIn 0) :=
    toOption_eq_some.1 (by decide +kernel)
  have hout : decodeGateScan (gateEvent "scan-2" "out" 1800000000) =
      .ok (gateScanAt "scan-2" .gateOut 1800000000) := toOption_eq_some.1 (by decide +kernel)
  refine (turnarounds_counted_iff Library.ascii (.cons hin (.cons hout .nil))).2 ?_
  have hvisits : visits [gateScanAt "scan-1" .gateIn 0, gateScanAt "scan-2" .gateOut 1800000000] =
      [(gateScanAt "scan-1" .gateIn 0, gateScanAt "scan-2" .gateOut 1800000000)] := by decide +kernel
  have hperiod : parsePeriod Library.ascii (lit "2026-01") =
      .ok (1767225600000000, 1769904000000000) := toOption_eq_some.1 (by decide +kernel)
  rw [hvisits, List.forall_mem_singleton]
  exact ⟨_, _, _, hperiod, by decide, by decide⟩

/-- **A visit across midnight at the end of a month** is counted in no
month. -/
theorem turnarounds_lost_midnight :
    ¬∃ months, collect (periods.map (periodDurations Library.ascii
        [gateEvent "scan-1" "in" 0, gateEvent "scan-2" "out" 3600000000])) = .ok months ∧
      months.sum = (visits [gateScanAt "scan-1" .gateIn 0, gateScanAt "scan-2" .gateOut 3600000000] :
        Multiset _).map minutes := by
  have hin : decodeGateScan (gateEvent "scan-1" "in" 0) = .ok (gateScanAt "scan-1" .gateIn 0) :=
    toOption_eq_some.1 (by decide +kernel)
  have hout : decodeGateScan (gateEvent "scan-2" "out" 3600000000) =
      .ok (gateScanAt "scan-2" .gateOut 3600000000) := toOption_eq_some.1 (by decide +kernel)
  have hvisits : visits [gateScanAt "scan-1" .gateIn 0, gateScanAt "scan-2" .gateOut 3600000000] =
      [(gateScanAt "scan-1" .gateIn 0, gateScanAt "scan-2" .gateOut 3600000000)] := by decide +kernel
  rintro ⟨months, hmonths, hall⟩
  have hperiods := exists_period_of_counted Library.ascii (.cons hin (.cons hout .nil)) hmonths hall
  rw [hvisits, List.forall_mem_singleton] at hperiods
  obtain ⟨period, start, stop, hparse, hstart, hstop⟩ := hperiods
  obtain ⟨-, -, -, rfl, rfl⟩ := parsePeriod_eq_ok.1 hparse
  have hjanuary := month_unique (k := 24300) (inPeriod_iff.1 hstart) (by decide)
  have hfebruary := month_unique (k := 24301) (inPeriod_iff.1 hstop) (by decide)
  omega

end PortStatistics

end Lakehouse

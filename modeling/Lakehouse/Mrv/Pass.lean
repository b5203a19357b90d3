import Lakehouse.Mrv.VesselAnnual
import Lakehouse.Common.Greatest
import Lakehouse.Common.Group
/-!
# The pass over the MRV events

One event of the pass is a statement, a verified report or neither
(`addEvent_eq`). Of a verified report the vessel and the year are always
read, the id only where it takes a place. What the pass keeps is, for every
vessel and year, the first of the latest reports it read in full, and for
every report the first of the latest statements (`Holds`).
-/

namespace Lakehouse

namespace Mrv

open Ingest

variable {F : Type} [PyFloat F] (L : Library)

/-! ## What is read of an event -/

/-- The statement of an event, under its report. -/
def statementOf (event : Row F) : Except PyError (Option (Text × Soc)) :=
  if isOfType socEventType event = false then .ok none
  else do return some (← readSoc (← eventRecord event))

/-- The statements of a content, each under its report. -/
def statements (events : List (Row F)) : List (Text × Soc) := entries statementOf events

/-- Those of a report. -/
def statementsOf (events : List (Row F)) (reportId : Text) : List Soc :=
  entriesOf statementOf events reportId

/-- **A verified report**, as far as it is always read. -/
structure Head (F : Type) where
  imoNumber : Text
  calendarYear : ℤ
  record : Record F

def Head.key (h : Head F) : Text × ℤ := (h.imoNumber, h.calendarYear)

def Head.order (h : Head F) : ℤ ×ₗ Text := toLex (h.record.occurredAt, h.record.eventId)

/-- The id of a report, read only where the report takes a place. -/
def Head.reportId (h : Head F) : Except PyError Text :=
  requireText h.record.fields (lit "reportId")

/-- The report, once its id is read. -/
def Head.report (h : Head F) (reportId : Text) : Report F :=
  ⟨h.imoNumber, h.calendarYear, reportId, h.record.fields, h.record.occurredAt, h.record.eventId⟩

/-- The verified report of an event. -/
def headOf (event : Row F) : Except PyError (Option (Head F)) :=
  if isOfType annualReportEventType event = false then .ok none
  else do
    let record ← eventRecord event
    if isVerified record.fields = false then .ok none
    else do
      let imo ← imoNumber L record.fields
      let year ← calendarYear record.fields
      return some ⟨imo, year, record⟩

/-- **An event that nothing before it makes raise**: the statement and the
report it may be can be read. -/
structure Readable (event : Row F) : Prop where
  statement : ∃ s, statementOf event = .ok s
  head : ∃ h, headOf L event = .ok h

/-- The verified reports of a content. -/
def heads (events : List (Row F)) : List (Head F) :=
  events.filterMap fun event => (headOf L event).toOption.join

/-- A verified report, where it is read in full. -/
def Head.full (h : Head F) : Option (Report F) := h.reportId.toOption.map h.report

/-- Those of a content. -/
def fullReports (events : List (Row F)) : List (Report F) := (heads L events).filterMap Head.full

variable {L} {events : List (Row F)} {event : Row F} {kept kept' : Kept F}
variable {rs : List (Report F)} {ss : List (Text × Soc)} {head : Head F}

/-! ## One event -/

/-- What a statement changes. -/
def keepStatement (kept : Kept F) : Option (Text × Soc) → Kept F
  | none => kept
  | some (reportId, soc) => { kept with
      socByReport := kept.socByReport.set reportId (keepSoc (kept.socByReport.get reportId) soc) }

/-- A report is later than the one kept of its vessel and year. -/
def isLater (kept : Kept F) (head : Head F) : Bool :=
  match kept.verified.find? fun r => r.key = head.key with
  | none => true
  | some existing => existing.order < head.order

/-- What a report changes. -/
def addHead (kept : Kept F) (head : Head F) : Except PyError (Kept F) :=
  if isLater kept head then do
    let reportId ← head.reportId
    return { kept with verified := setReport kept.verified (head.report reportId) }
  else .ok kept

omit [PyFloat F] in
/-- A statement is no report. -/
theorem isOfType_annual_of_soc (h : isOfType socEventType event = true) :
    isOfType annualReportEventType event = false :=
  isOfType_of_ne (by decide) h

/-- **One event of the pass**: its statement, then its report. -/
theorem addEvent_eq : addEvent L kept event = (do
    let statement ← statementOf event
    match ← headOf L event with
    | none => .ok (keepStatement kept statement)
    | some head => addHead (keepStatement kept statement) head) := by
  unfold addEvent statementOf headOf
  by_cases hsoc : isOfType socEventType event = true
  · rw [if_pos hsoc, if_neg (ne_false_of_eq_true hsoc), if_pos (isOfType_annual_of_soc hsoc)]
    cases eventRecord event with
    | error e => rfl
    | ok record =>
      simp only [ok_bind, addSoc]
      cases readSoc record with
      | error e => rfl
      | ok s => rfl
  · have hnosoc : isOfType socEventType event = false := Bool.not_eq_true _ ▸ hsoc
    rw [if_neg hsoc, if_pos hnosoc]
    by_cases hannual : isOfType annualReportEventType event = true
    · rw [if_pos hannual, if_neg (ne_false_of_eq_true hannual)]
      cases eventRecord event with
      | error e => rfl
      | ok record =>
        simp only [ok_bind]
        by_cases hverified : isVerified record.fields = true
        · rw [if_pos hverified, if_neg (ne_false_of_eq_true hverified), addVerified]
          cases imoNumber L record.fields with
          | error e => rfl
          | ok imo =>
            cases calendarYear record.fields with
            | error e => rfl
            | ok year => rfl
        · have hother : isVerified record.fields = false := Bool.not_eq_true _ ▸ hverified
          rw [if_neg hverified, if_pos hother]
          rfl
    · have hneither : isOfType annualReportEventType event = false := Bool.not_eq_true _ ▸ hannual
      rw [if_neg hannual, if_pos hneither]
      rfl

/-! ## What the pass keeps -/

/-- **What is kept of some reports and statements.** -/
structure Holds (rs : List (Report F)) (ss : List (Text × Soc)) (kept : Kept F) : Prop where
  keys : (kept.verified.map Report.key).Nodup
  report : ∀ key, Keeps Report.order (rs.filter fun r => r.key = key)
    (kept.verified.find? fun r => r.key = key)
  distinct : kept.socByReport.Distinct
  soc : ∀ reportId, Keeps Soc.order ((ss.filter fun s => s.1 = reportId).map Prod.snd)
    (kept.socByReport.get reportId)

omit [PyFloat F] in
/-- Nothing is kept before the first event. -/
theorem holds_nil : Holds ([] : List (Report F)) [] ⟨[], []⟩ where
  keys := List.nodup_nil
  report _ := rfl
  distinct := Members.distinct_nil
  soc _ := rfl

omit [PyFloat F] in
/-- What is under a key after a report is set. -/
theorem find_setReport (verified : List (Report F)) (r : Report F) (key : Text × ℤ) :
    (setReport verified r).find? (fun r => r.key = key) =
      if key = r.key then some r else verified.find? fun r => r.key = key := by
  unfold setReport
  by_cases hmem : r.key ∈ verified.map Report.key
  · rw [if_pos hmem, List.find?_map]
    obtain ⟨old, hold, hkey⟩ := List.mem_map.1 hmem
    split_ifs with hk
    · have hfound : ∀ x : Report F, ((fun x : Report F => decide (x.key = key)) ∘
          fun x => if x.key = r.key then r else x) x = decide (x.key = r.key) := by
        intro x
        rw [Function.comp_apply]
        split_ifs with hx <;> simp [hk, hx]
      rw [funext hfound]
      cases hfind : verified.find? fun x => decide (x.key = r.key) with
      | none => exact absurd hkey (by simpa using List.find?_eq_none.1 hfind old hold)
      | some x =>
        have hx : x.key = r.key := by simpa using List.find?_some hfind
        rw [Option.map_some, if_pos hx]
    · have hfound : ∀ x : Report F, ((fun x : Report F => decide (x.key = key)) ∘
          fun x => if x.key = r.key then r else x) x = decide (x.key = key) := by
        intro x
        rw [Function.comp_apply]
        split_ifs with hx
        · rw [hx]
        · rfl
      rw [funext hfound]
      cases hfind : verified.find? fun x => decide (x.key = key) with
      | none => rfl
      | some x =>
        have hx : x.key = key := by simpa using List.find?_some hfind
        rw [Option.map_some, if_neg fun he => hk (hx.symm.trans he)]
  · rw [if_neg hmem, List.find?_append]
    split_ifs with hk
    · have hnone : (verified.find? fun x => decide (x.key = key)) = none := by
        rw [List.find?_eq_none]
        intro x hx hxk
        exact hmem (List.mem_map.2 ⟨x, hx, by rw [← hk]; simpa using hxk⟩)
      rw [hnone, List.find?_singleton]
      simp [hk]
    · have hne : ¬r.key = key := fun he => hk he.symm
      simp [hne]

omit [PyFloat F] in
/-- Setting a report keeps the keys distinct. -/
theorem nodup_setReport {verified : List (Report F)} (h : (verified.map Report.key).Nodup)
    (r : Report F) : ((setReport verified r).map Report.key).Nodup := by
  unfold setReport
  split_ifs with hmem
  · have hkeys : ((fun x : Report F => x.key) ∘ fun x => if x.key = r.key then r else x) =
        Report.key := by
      funext x
      rw [Function.comp_apply]
      split_ifs with hx
      · exact hx.symm
      · rfl
    rw [List.map_map, hkeys]
    exact h
  · rw [List.map_append, List.map_singleton]
    exact List.nodup_append.2 ⟨h, List.nodup_singleton _, fun a ha b hb => by
      rw [List.mem_singleton.1 hb]
      exact fun he => hmem (he ▸ ha)⟩

omit [PyFloat F] in
/-- A statement more. -/
theorem Holds.keepStatement (h : Holds rs ss kept) (statement : Option (Text × Soc)) :
    Holds rs (ss ++ statement.toList) (keepStatement kept statement) := by
  cases statement with
  | none => simpa [Mrv.keepStatement] using h
  | some s =>
    obtain ⟨reportId, soc⟩ := s
    have hnext : keepSoc (kept.socByReport.get reportId) soc =
        keepNext Soc.order (kept.socByReport.get reportId) soc := by
      cases kept.socByReport.get reportId <;> rfl
    refine ⟨h.keys, h.report, h.distinct.set _ _, fun id => ?_⟩
    simp only [Mrv.keepStatement, Members.get_set, List.filter_append, List.map_append]
    split_ifs with hk
    · subst hk
      rw [hnext]
      simpa using (h.soc id).concat soc
    · have hne : ¬reportId = id := fun he => hk he.symm
      simpa [hne] using h.soc id

omit [PyFloat F] in
/-- A report more, kept for its vessel and year where it is later. -/
theorem Holds.keepReport (h : Holds rs ss kept) {r : Report F} {verified : List (Report F)}
    (hkeys : (verified.map Report.key).Nodup)
    (hfind : ∀ key, verified.find? (fun x => x.key = key) =
      if key = r.key then
        some (keepNext Report.order (kept.verified.find? fun x => x.key = r.key) r)
      else kept.verified.find? fun x => x.key = key) :
    Holds (rs ++ [r]) ss { kept with verified := verified } := by
  refine ⟨hkeys, fun key => ?_, h.distinct, h.soc⟩
  rw [List.filter_append, hfind]
  split_ifs with hk
  · subst hk
    simpa using (h.report r.key).concat r
  · have hne : ¬r.key = key := fun he => hk he.symm
    simpa [hne] using h.report key

omit [PyFloat F] in
/-- **A report that can be read in full.** -/
theorem Holds.addHead (h : Holds rs ss kept) {reportId : Text} (hid : head.reportId = .ok reportId) :
    ∃ kept', addHead kept head = .ok kept' ∧ Holds (rs ++ [head.report reportId]) ss kept' := by
  have hkey : (head.report reportId).key = head.key := rfl
  have horder : (head.report reportId).order = head.order := rfl
  rw [Mrv.addHead, isLater]
  cases hfind : kept.verified.find? fun r => r.key = head.key with
  | none =>
    simp only [if_true, hid, ok_bind]
    refine ⟨_, rfl, h.keepReport (nodup_setReport h.keys _) fun key => ?_⟩
    rw [find_setReport, hkey, hfind]
    rfl
  | some existing =>
    simp only [decide_eq_true_eq]
    split_ifs with hlater
    · simp only [hid, ok_bind]
      refine ⟨_, rfl, h.keepReport (nodup_setReport h.keys _) fun key => ?_⟩
      have hnext : keepNext Report.order (some existing) (head.report reportId) =
          head.report reportId := if_pos (by rwa [horder])
      rw [find_setReport, hkey, hfind, hnext]
    · refine ⟨kept, rfl, h.keepReport h.keys fun key => ?_⟩
      have hnext : keepNext Report.order (some existing) (head.report reportId) = existing :=
        if_neg (by rwa [horder])
      rw [hkey, hfind, hnext]
      split_ifs with hk
      · rw [hk, hfind]
      · rfl

/-- A report no later than one of its vessel and year is not kept. -/
def Superseded (rs : List (Report F)) (head : Head F) : Prop :=
  ∃ r ∈ rs, r.key = head.key ∧ head.order ≤ r.order

omit [PyFloat F] in
/-- A report is not later where a kept one supersedes it. -/
theorem Holds.isLater_eq_false_iff (h : Holds rs ss kept) :
    isLater kept head = false ↔ Superseded rs head := by
  have hkeeps := h.report head.key
  rw [isLater]
  cases hfind : kept.verified.find? fun r => r.key = head.key with
  | none =>
    rw [hfind] at hkeeps
    have hnone : (rs.filter fun r => r.key = head.key) = [] := hkeeps
    rw [List.filter_eq_nil_iff] at hnone
    refine iff_of_false nofun ?_
    rintro ⟨r, hr, hkey, -⟩
    exact hnone r hr (decide_eq_true hkey)
  | some existing =>
    rw [hfind] at hkeeps
    have hgreatest : FirstGreatest Report.order (rs.filter fun r => r.key = head.key) existing :=
      hkeeps
    simp only [decide_eq_false_iff_not, not_lt]
    constructor
    · intro hle
      obtain ⟨hmem, hkey⟩ := List.mem_filter.1 hgreatest.mem
      exact ⟨existing, hmem, of_decide_eq_true hkey, hle⟩
    · rintro ⟨r, hr, hkey, hle⟩
      exact hle.trans (hgreatest.le r (List.mem_filter.2 ⟨hr, decide_eq_true hkey⟩))

omit [PyFloat F] in
/-- A report is kept where it is found. -/
theorem Holds.find_eq_some (h : Holds rs ss kept) {r : Report F} :
    (kept.verified.find? fun x => x.key = r.key) = some r ↔ r ∈ kept.verified := by
  refine ⟨List.mem_of_find?_eq_some, fun hr => ?_⟩
  cases hfind : kept.verified.find? fun x => x.key = r.key with
  | none => exact absurd (decide_eq_true rfl) (List.find?_eq_none.1 hfind r hr)
  | some x =>
    have hx : x.key = r.key := by simpa using List.find?_some hfind
    rw [List.inj_on_of_nodup_map h.keys (List.mem_of_find?_eq_some hfind) hr hx]

omit [PyFloat F] in
/-- A statement is kept where there is one. -/
theorem Holds.mem_socs (h : Holds rs ss kept) {reportId : Text} :
    (∃ soc, (reportId, soc) ∈ kept.socByReport) ↔ ∃ s ∈ ss, s.1 = reportId := by
  have hget : (∃ soc, (reportId, soc) ∈ kept.socByReport) ↔
      kept.socByReport.get reportId ≠ none := by
    rw [Option.ne_none_iff_exists']
    exact exists_congr fun soc => (Members.get_eq_some h.distinct).symm
  rw [hget, Ne, (h.soc reportId).eq_none, List.map_eq_nil_iff, List.filter_eq_nil_iff]
  push Not
  simp only [decide_eq_true_eq]

/-! ## The whole pass -/

/-- The statements, event by event. -/
theorem statements_cons {s : Option (Text × Soc)} (h : statementOf event = .ok s)
    (events : List (Row F)) : statements (event :: events) = s.toList ++ statements events := by
  rw [statements, entries, List.filterMap_cons, h]
  cases s <;> rfl

/-- The heads, event by event. -/
theorem heads_cons {p : Option (Head F)} (h : headOf L event = .ok p) (events : List (Row F)) :
    heads L (event :: events) = p.toList ++ heads L events := by
  rw [heads, List.filterMap_cons, h]
  cases p <;> rfl

/-- The full reports, event by event. -/
theorem fullReports_cons {p : Option (Head F)} (h : headOf L event = .ok p)
    (events : List (Row F)) :
    fullReports L (event :: events) = p.toList.filterMap Head.full ++ fullReports L events := by
  rw [fullReports, heads_cons h, List.filterMap_append]
  rfl

omit [PyFloat F] in
/-- A head with its report id is a report. -/
theorem Head.full_of_ok {reportId : Text} (h : head.reportId = .ok reportId) :
    head.full = some (head.report reportId) := by
  rw [Head.full, h]
  rfl

omit [PyFloat F] in
/-- A head without a report id is none. -/
theorem Head.full_of_error {e : PyError} (h : head.reportId = .error e) : head.full = none := by
  rw [Head.full, h]
  rfl

/-- **A pass that returns**: every event was readable, and a report whose id
cannot be read was superseded when its turn came. -/
theorem collectEvents_eq_ok (hkept : Holds rs ss kept)
    (h : collectEvents L events kept = .ok kept') :
    (∀ event ∈ events, Readable L event) ∧
      (∀ head ∈ heads L events, head.full = none →
        Superseded (rs ++ fullReports L events) head) ∧
      Holds (rs ++ fullReports L events) (ss ++ statements events) kept' := by
  induction events generalizing kept rs ss with
  | nil =>
    cases h
    refine ⟨nofun, nofun, ?_⟩
    simpa [fullReports, heads, statements, entries] using hkept
  | cons event events ih =>
    obtain ⟨next, hnext, h⟩ := bind_eq_ok.1 h
    rw [addEvent_eq] at hnext
    obtain ⟨s, hs, hnext⟩ := bind_eq_ok.1 hnext
    obtain ⟨p, hp, hnext⟩ := bind_eq_ok.1 hnext
    have hstatement := hkept.keepStatement s
    -- what the report of the event, if it is one, leaves to keep
    have hstep : Holds (rs ++ p.toList.filterMap Head.full) (ss ++ s.toList) next ∧
        ∀ head ∈ p, head.full = none → Superseded rs head := by
      cases p with
      | none =>
        cases hnext
        exact ⟨by simpa using hstatement, by rintro _ ⟨⟩⟩
      | some head =>
        cases hid : head.reportId with
        | ok reportId =>
          obtain ⟨kept', hadd, hholds⟩ := hstatement.addHead hid
          obtain rfl := Except.ok.inj (hnext.symm.trans hadd)
          refine ⟨by simpa [Head.full_of_ok hid] using hholds, ?_⟩
          rintro _ ⟨⟩ hnone
          cases (Head.full_of_ok hid).symm.trans hnone
        | error e =>
          have hlater : isLater (keepStatement kept s) head = false := by
            by_contra hlater
            simp only [addHead, Bool.not_eq_false] at hnext hlater
            rw [if_pos hlater, hid] at hnext
            cases hnext
          simp only [addHead, hlater, Bool.false_eq_true, if_false] at hnext
          cases hnext
          refine ⟨by simpa [Head.full_of_error hid] using hstatement, ?_⟩
          rintro _ ⟨⟩ -
          exact hstatement.isLater_eq_false_iff.1 hlater
    obtain ⟨hreadable, hsuperseded, hholds⟩ := ih hstep.1 h
    rw [heads_cons hp, fullReports_cons hp, statements_cons hs, ← List.append_assoc,
      ← List.append_assoc]
    refine ⟨List.forall_mem_cons.2 ⟨⟨⟨s, hs⟩, p, hp⟩, hreadable⟩, fun head hmem hnone => ?_, hholds⟩
    obtain hmem | hmem := List.mem_append.1 hmem
    · obtain ⟨r, hr, hle⟩ := hstep.2 head (Option.mem_toList.1 hmem) hnone
      exact ⟨r, List.mem_append_left _ (List.mem_append_left _ hr), hle⟩
    · exact hsuperseded head hmem hnone

/-- **A pass returns** where every event is readable and every report whose
id cannot be read is superseded from the start. -/
theorem collectEvents_isOk (hkept : Holds rs ss kept) (h : ∀ event ∈ events, Readable L event)
    (hsuperseded : ∀ head ∈ heads L events, head.full = none → Superseded rs head) :
    ∃ kept', collectEvents L events kept = .ok kept' := by
  induction events generalizing kept rs ss with
  | nil => exact ⟨kept, rfl⟩
  | cons event events ih =>
    obtain ⟨⟨⟨s, hs⟩, p, hp⟩, hevents⟩ := List.forall_mem_cons.1 h
    rw [heads_cons hp] at hsuperseded
    have hstatement := hkept.keepStatement s
    have hrest : ∀ rs', (∀ r ∈ rs, r ∈ rs') → ∀ head ∈ heads L events, head.full = none →
        Superseded rs' head := by
      intro rs' hsub head hhead hnone
      obtain ⟨r, hr, hle⟩ := hsuperseded head (List.mem_append_right _ hhead) hnone
      exact ⟨r, hsub r hr, hle⟩
    rw [collectEvents, addEvent_eq, hs, ok_bind, hp, ok_bind]
    cases p with
    | none => exact ih hstatement hevents (hrest rs fun r hr => hr)
    | some head =>
      simp only
      cases hid : head.reportId with
      | ok reportId =>
        obtain ⟨kept', hadd, hholds⟩ := hstatement.addHead hid
        rw [hadd]
        exact ih hholds hevents (hrest _ fun r hr => List.mem_append_left _ hr)
      | error e =>
        have hlater := hstatement.isLater_eq_false_iff.2
          (hsuperseded head (by simp) (Head.full_of_error hid))
        rw [addHead, if_neg (by simp [hlater])]
        exact ih hstatement hevents (hrest rs fun r hr => hr)

end Mrv

end Lakehouse

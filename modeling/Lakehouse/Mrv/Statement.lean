import Lakehouse.Mrv.Pass
/-!
# Statements of Compliance

Of well-formed events the pass keeps, for every vessel and year, the first
of the latest verified reports, and for every report the first of the
latest statements (`collectEvents_keeps`). The rows take their statements
from the reports kept alone, so the rule that a statement needs a verified
report holds of a content where each statement is for the report kept of
exactly one vessel and year (`vesselAnnual_iff`).
-/

namespace Lakehouse

namespace Mrv

open Ingest

variable {F : Type} [PyFloat F] (L : Library)

/-! ## Well-formed events -/

/-- The verified report of an event, read in full. -/
def reportOf (event : Row F) : Except PyError (Option (Report F)) :=
  if isOfType annualReportEventType event = false then .ok none
  else do
    let record ← eventRecord event
    if isVerified record.fields = false then .ok none
    else do
      let imo ← imoNumber L record.fields
      let year ← calendarYear record.fields
      let reportId ← requireText record.fields (lit "reportId")
      let _ ← reportColumns L record.fields
      return some ⟨imo, year, reportId, record.fields, record.occurredAt, record.eventId⟩

/-- **A well-formed event**: of another type, or with all that is read of
its type. -/
structure WellFormed (event : Row F) : Prop where
  report : ∃ r, reportOf L event = .ok r
  statement : ∃ s, statementOf event = .ok s

/-- The verified reports of a content. -/
def reports (events : List (Row F)) : List (Report F) :=
  events.filterMap fun event => (reportOf L event).toOption.join

/-- Those of a vessel and a year. -/
def reportsOf (events : List (Row F)) (key : Text × ℤ) : List (Report F) :=
  (reports L events).filter fun r => r.key = key

variable {L} {events : List (Row F)} {event : Row F} {kept : Kept F}

/-- **What the pass keeps of some events.** -/
structure KeepsLatest (L : Library) (events : List (Row F)) (kept : Kept F) : Prop where
  keys : (kept.verified.map Report.key).Nodup
  report : ∀ key, Keeps Report.order (reportsOf L events key)
    (kept.verified.find? fun r => r.key = key)
  distinct : kept.socByReport.Distinct
  soc : ∀ reportId, Keeps Soc.order (statementsOf events reportId) (kept.socByReport.get reportId)

/-- What is kept of the events is kept of their reports and statements. -/
theorem keepsLatest_iff :
    KeepsLatest L events kept ↔ Holds (reports L events) (statements events) kept :=
  ⟨fun h => ⟨h.keys, h.report, h.distinct, h.soc⟩, fun h => ⟨h.keys, h.report, h.distinct, h.soc⟩⟩

/-- A report read in full is the report of its event, with its columns. -/
theorem reportOf_eq : reportOf L event = (do
    match ← headOf L event with
    | none => .ok none
    | some head => do
      let reportId ← head.reportId
      let _ ← reportColumns L head.record.fields
      return some (head.report reportId)) := by
  unfold reportOf headOf
  split_ifs with hannual
  · rfl
  · cases eventRecord event with
    | error e => rfl
    | ok record =>
      simp only [ok_bind]
      split_ifs with hverified
      · rfl
      · cases imoNumber L record.fields with
        | error e => rfl
        | ok imo =>
          cases calendarYear record.fields with
          | error e => rfl
          | ok year => rfl

/-- A well-formed event can be read. -/
theorem WellFormed.readable (h : WellFormed L event) : Readable L event where
  statement := h.statement
  head := by
    obtain ⟨r, hr⟩ := h.report
    rw [reportOf_eq] at hr
    obtain ⟨p, hp, -⟩ := bind_eq_ok.1 hr
    exact ⟨p, hp⟩

/-- Of a well-formed event the report is read in full. -/
theorem WellFormed.full (h : WellFormed L event) {p : Option (Head F)} (hp : headOf L event = .ok p) :
    (reportOf L event).toOption.join.toList = p.toList.filterMap Head.full ∧
      ∀ head ∈ p, head.full ≠ none := by
  obtain ⟨r, hr⟩ := h.report
  rw [hr]
  rw [reportOf_eq, hp, ok_bind] at hr
  cases p with
  | none =>
    cases hr
    exact ⟨rfl, nofun⟩
  | some head =>
    obtain ⟨reportId, hid, hr⟩ := bind_eq_ok.1 hr
    obtain ⟨_, -, hr⟩ := bind_eq_ok.1 hr
    cases hr
    have hfull := Head.full_of_ok hid
    refine ⟨by simp [hfull, Except.toOption], ?_⟩
    rintro _ ⟨⟩ hnone
    cases hfull.symm.trans hnone

/-- The reports of well-formed events are all full. -/
theorem reports_eq (h : ∀ event ∈ events, WellFormed L event) :
    reports L events = fullReports L events ∧ ∀ head ∈ heads L events, head.full ≠ none := by
  induction events with
  | nil => exact ⟨rfl, nofun⟩
  | cons event events ih =>
    obtain ⟨hevent, hevents⟩ := List.forall_mem_cons.1 h
    obtain ⟨p, hp⟩ := hevent.readable.head
    obtain ⟨hreport, hfull⟩ := hevent.full hp
    obtain ⟨hreports, hheads⟩ := ih hevents
    rw [fullReports_cons hp, heads_cons hp, ← hreports, ← hreport]
    refine ⟨?_, fun head hhead => ?_⟩
    · rw [reports, List.filterMap_cons]
      cases (reportOf L event).toOption.join <;> rfl
    · obtain hhead | hhead := List.mem_append.1 hhead
      · exact hfull head (Option.mem_toList.1 hhead)
      · exact hheads head hhead

/-- **The pass over well-formed events.** -/
theorem collectEvents_keeps (h : ∀ event ∈ events, WellFormed L event) :
    ∃ kept, collectEvents L events ⟨[], []⟩ = .ok kept ∧ KeepsLatest L events kept := by
  obtain ⟨hreports, hfull⟩ := reports_eq h
  obtain ⟨kept, hkept⟩ := collectEvents_isOk holds_nil (fun event hevent => (h event hevent).readable)
    fun head hhead hnone => absurd hnone (hfull head hhead)
  obtain ⟨-, -, hholds⟩ := collectEvents_eq_ok holds_nil hkept
  exact ⟨kept, hkept, keepsLatest_iff.2 (by rw [hreports]; exact hholds)⟩

/-! ## The rows -/

variable (L) in
/-- **The report a row is made of**: the first of the latest of its vessel
and year. -/
def Authoritative (events : List (Row F)) (r : Report F) : Prop :=
  FirstGreatest Report.order (reportsOf L events r.key) r

/-- The reports of a key. -/
theorem mem_reportsOf {r : Report F} {key : Text × ℤ} :
    r ∈ reportsOf L events key ↔ r ∈ reports L events ∧ r.key = key := by
  simp [reportsOf]

/-- Every vessel and year with a verified report has one. -/
theorem exists_authoritative {r : Report F} (h : r ∈ reports L events) :
    ∃ a, Authoritative L events a ∧ a.key = r.key := by
  have hmem : r ∈ reportsOf L events r.key := mem_reportsOf.2 ⟨h, rfl⟩
  obtain ⟨a, ha⟩ : ∃ a, FirstGreatest Report.order (reportsOf L events r.key) a :=
    exists_firstGreatest (List.ne_nil_of_mem hmem)
  have hkey := (mem_reportsOf.1 ha.mem).2
  exact ⟨a, by rw [Authoritative, hkey]; exact ha, hkey⟩

/-- The reports kept are the authoritative ones. -/
theorem KeepsLatest.mem_verified (hkept : KeepsLatest L events kept) {r : Report F} :
    r ∈ kept.verified ↔ Authoritative L events r := by
  rw [Authoritative, ← (hkept.report r.key).eq_some]
  exact (keepsLatest_iff.1 hkept).find_eq_some.symm

/-- The statement each report takes, in turn. -/
def taken : List (Report F) → Members Soc → List (Report F × Option Soc)
  | [], _ => []
  | r :: rs, socs => (r, socs.get r.reportId) :: taken rs (socs.without r.reportId)

/-- A report with its columns has its row. -/
theorem vesselRow_isOk {r : Report F} (h : ∃ c, reportColumns L r.fields = .ok c) (curatedAt : ℤ)
    (soc : Option Soc) : ∃ row, vesselRow L curatedAt r soc = .ok row := by
  obtain ⟨c, hc⟩ := h
  exact ⟨_, bind_eq_ok.2 ⟨c, hc, bind_eq_ok.2 ⟨_, dumps_texts _ _, rfl⟩⟩⟩

/-- What a row says of its report and its statement. -/
theorem vesselRow_get {curatedAt : ℤ} {r : Report F} {soc : Option Soc} {row : Row F}
    (h : vesselRow L curatedAt r soc = .ok row) :
    row.get "imo_number" = .text r.imoNumber ∧ row.get "calendar_year" = .int r.calendarYear ∧
      row.get "report_id" = .text r.reportId ∧
      row.get "soc_artifact_sha256" = Event.optional (soc.map Soc.artifact) := by
  obtain ⟨_, -, h⟩ := bind_eq_ok.1 h
  obtain ⟨_, -, h⟩ := bind_eq_ok.1 h
  cases h
  exact ⟨rfl, rfl, rfl, rfl⟩

/-- **What gathering makes of the reports.** -/
theorem gatherRows_eq (curatedAt : ℤ) {rs : List (Report F)} (socs : Members Soc)
    (h : ∀ r ∈ rs, ∃ c, reportColumns L r.fields = .ok c) :
    ∃ rows, gatherRows L curatedAt rs socs =
        .ok (rows, socs.filter fun m => m.1 ∉ rs.map Report.reportId) ∧
      List.Forall₂ (fun p row => vesselRow L curatedAt p.1 p.2 = .ok row) (taken rs socs) rows := by
  induction rs generalizing socs with
  | nil => exact ⟨[], by simp [gatherRows], .nil⟩
  | cons r rs ih =>
    obtain ⟨hr, hrs⟩ := List.forall_mem_cons.1 h
    obtain ⟨row, hrow⟩ := vesselRow_isOk hr curatedAt (socs.get r.reportId)
    obtain ⟨rows, hrows, htaken⟩ := ih (socs.without r.reportId) hrs
    refine ⟨row :: rows, ?_, .cons hrow htaken⟩
    rw [gatherRows, hrow, ok_bind, hrows, ok_bind]
    simp only [Members.without, List.filter_filter, pure_eq_ok, Except.ok.injEq, Prod.mk.injEq,
      true_and]
    refine List.filter_congr fun m _ => ?_
    rw [← Bool.decide_and]
    refine decide_eq_decide.2 ?_
    rw [List.map_cons, List.mem_cons, not_or, and_comm]

omit [PyFloat F] in
/-- Every report is taken once, in order. -/
theorem taken_fst (rs : List (Report F)) (socs : Members Soc) :
    (taken rs socs).map Prod.fst = rs := by
  induction rs generalizing socs with
  | nil => rfl
  | cons r rs ih => rw [taken, List.map_cons, ih]

omit [PyFloat F] in
/-- A report whose statement is gone takes none. -/
theorem taken_none {rs : List (Report F)} {socs : Members Soc} {r : Report F} (hr : r ∈ rs)
    (h : socs.get r.reportId = none) : (r, none) ∈ taken rs socs := by
  induction rs generalizing socs with
  | nil => cases hr
  | cons x rs ih =>
    obtain rfl | hr := List.mem_cons.1 hr
    · rw [taken, h]
      exact List.mem_cons_self
    · refine List.mem_cons_of_mem _ (ih hr ?_)
      rw [Members.get_without]
      split_ifs
      · rfl
      · exact h

omit [PyFloat F] in
/-- **Of two reports with one id, one takes no statement.** -/
theorem taken_twice {rs : List (Report F)} (socs : Members Soc) {r r' : Report F} (hr : r ∈ rs)
    (hr' : r' ∈ rs) (hne : r ≠ r') (hid : r'.reportId = r.reportId) :
    ∃ x, x.reportId = r.reportId ∧ (x, none) ∈ taken rs socs := by
  induction rs generalizing socs with
  | nil => cases hr
  | cons x rs ih =>
    by_cases hx : x.reportId = r.reportId
    · have hgone : (socs.without x.reportId).get r.reportId = none := by
        rw [Members.get_without, if_pos hx.symm]
      obtain rfl | hrest := List.mem_cons.1 hr
      · have hrest' := (List.mem_cons.1 hr').resolve_left (Ne.symm hne)
        exact ⟨r', hid, List.mem_cons_of_mem _ (taken_none hrest' (hid ▸ hgone))⟩
      · exact ⟨r, rfl, List.mem_cons_of_mem _ (taken_none hrest hgone)⟩
    · have hrest := (List.mem_cons.1 hr).resolve_left fun he => hx (by rw [he])
      have hrest' := (List.mem_cons.1 hr').resolve_left fun he => hx (by rw [← he, hid])
      obtain ⟨y, hy, hmem⟩ := ih (socs.without x.reportId) hrest hrest'
      exact ⟨y, hy, List.mem_cons_of_mem _ hmem⟩

omit [PyFloat F] in
/-- **Where no statement is for two reports, each report takes its own.** -/
theorem taken_of_unique {rs : List (Report F)} {socs : Members Soc} (hnodup : rs.Nodup)
    (h : ∀ r ∈ rs, ∀ r' ∈ rs, r.reportId = r'.reportId → socs.get r.reportId ≠ none → r = r') :
    taken rs socs = rs.map fun r => (r, socs.get r.reportId) := by
  induction rs generalizing socs with
  | nil => rfl
  | cons x rs ih =>
    obtain ⟨hx, hrs⟩ := List.nodup_cons.1 hnodup
    have hsame : ∀ r ∈ rs, (socs.without x.reportId).get r.reportId = socs.get r.reportId := by
      intro r hr
      rw [Members.get_without]
      split_ifs with hid
      · by_contra hsome
        have hxr := h x List.mem_cons_self r (List.mem_cons_of_mem _ hr) hid.symm
          (by rw [← hid]; exact Ne.symm hsome)
        exact hx (hxr ▸ hr)
      · rfl
    rw [taken, List.map_cons, ih hrs ?_, List.map_congr_left fun r hr => by rw [hsame r hr]]
    intro r hr r' hr' hid hsome
    rw [hsame r hr] at hsome
    exact h r (List.mem_cons_of_mem _ hr) r' (List.mem_cons_of_mem _ hr') hid hsome

/-! ## The rule -/

variable (L) in
/-- **A statement without a verified report.** -/
def Orphan (events : List (Row F)) : Prop :=
  ∃ s ∈ statements events, ∀ r ∈ reports L events, r.reportId ≠ s.1

variable (L) in
/-- **The rows of a content**: one for each vessel and year, in order, made
of its authoritative report, with the latest statement for that report. -/
def RightRows (events rows : List (Row F)) : Prop :=
  ∃ rs : List (Report F), (rs.Pairwise fun a b => (toLex a.key : Text ×ₗ ℤ) < toLex b.key) ∧
    (∀ r, r ∈ rs ↔ Authoritative L events r) ∧
    List.Forall₂ (fun r row => row.get "imo_number" = .text r.imoNumber ∧
      row.get "calendar_year" = .int r.calendarYear ∧ row.get "report_id" = .text r.reportId ∧
      ∃ soc, Keeps Soc.order (statementsOf events r.reportId) soc ∧
        row.get "soc_artifact_sha256" = Event.optional (soc.map Soc.artifact)) rs rows

variable (L) in
/-- **The rule**: a statement without a verified report is an error, and
without such a statement there are the right rows. -/
def MeetsRule (events : List (Row F)) (curatedAt : ℤ) : Prop :=
  ((∃ orphaned, buildVesselAnnualRows L events curatedAt = .error (orphanedError orphaned)) ↔
      Orphan L events) ∧
    (¬Orphan L events →
      ∃ rows, buildVesselAnnualRows L events curatedAt = .ok rows ∧ RightRows L events rows)

/-- An authoritative report is one of the reports. -/
theorem Authoritative.mem {r : Report F} (h : Authoritative L events r) : r ∈ reports L events :=
  (mem_reportsOf.1 (FirstGreatest.mem h)).1

/-- A vessel and year have one authoritative report. -/
theorem Authoritative.unique {r r' : Report F} (h : Authoritative L events r)
    (h' : Authoritative L events r') (hkey : r.key = r'.key) : r = r' := by
  unfold Authoritative at h h'
  rw [hkey] at h
  exact FirstGreatest.unique h h'

/-- Every verified report has the columns of a row. -/
theorem reportColumns_isOk {r : Report F} (h : r ∈ reports L events) :
    ∃ c, reportColumns L r.fields = .ok c := by
  obtain ⟨event, -, hr⟩ := List.mem_filterMap.1 h
  obtain ⟨p, hp, rfl⟩ : ∃ p, reportOf L event = .ok p ∧ p = some r := by
    cases hp : reportOf L event with
    | error e => rw [hp] at hr; cases hr
    | ok p => rw [hp] at hr; exact ⟨p, rfl, hr⟩
  unfold reportOf at hp
  split_ifs at hp
  · cases hp
  obtain ⟨record, -, hp⟩ := bind_eq_ok.1 hp
  split_ifs at hp
  · cases hp
  obtain ⟨_, -, hp⟩ := bind_eq_ok.1 hp
  obtain ⟨_, -, hp⟩ := bind_eq_ok.1 hp
  obtain ⟨_, -, hp⟩ := bind_eq_ok.1 hp
  obtain ⟨c, hc, hp⟩ := bind_eq_ok.1 hp
  cases hp
  exact ⟨c, hc⟩

omit [PyFloat F] in
/-- The reports in the order of the rows. -/
theorem pairwise_sortReports {verified : List (Report F)}
    (h : (verified.map Report.key).Nodup) :
    (sortReports verified).Pairwise fun a b => (toLex a.key : Text ×ₗ ℤ) < toLex b.key := by
  have hperm : (sortReports verified).Perm verified := perm_sortBy _ _
  have hkeys : ((sortReports verified).map Report.key).Nodup :=
    (hperm.map Report.key).nodup_iff.2 h
  have hsorted : (sortReports verified).Pairwise fun a b =>
      (toLex a.key : Text ×ₗ ℤ) ≤ toLex b.key := pairwise_sortBy _ _
  exact (hsorted.and (List.pairwise_map.1 hkeys)).imp fun ⟨hle, hne⟩ =>
    lt_of_le_of_ne hle fun heq => hne (toLex.injective heq)

/-- A report without statements. -/
theorem statementsOf_eq_nil {reportId : Text} :
    statementsOf events reportId = [] ↔ ∀ s ∈ statements events, s.1 ≠ reportId := by
  rw [statementsOf, entriesOf, List.map_eq_nil_iff, List.filter_eq_nil_iff]
  simp [statements]

omit [PyFloat F] in
/-- There is one list of some reports in the order of the rows. -/
theorem sorted_unique {rs rs' : List (Report F)}
    (h : rs.Pairwise fun a b => (toLex a.key : Text ×ₗ ℤ) < toLex b.key)
    (h' : rs'.Pairwise fun a b => (toLex a.key : Text ×ₗ ℤ) < toLex b.key)
    (hmem : ∀ r, r ∈ rs ↔ r ∈ rs') : rs = rs' := by
  have hnodup : ∀ {l : List (Report F)},
      (l.Pairwise fun a b => (toLex a.key : Text ×ₗ ℤ) < toLex b.key) → l.Nodup :=
    fun hl => hl.imp fun hlt heq => absurd (congrArg (fun r => toLex r.key) heq) hlt.ne
  refine List.Perm.eq_of_pairwise (fun a b _ _ hab hba => absurd hab (lt_asymm hba)) h h' ?_
  exact (List.perm_ext_iff_of_nodup (hnodup h) (hnodup h')).2 hmem

/-- **What the function makes of a well-formed content.** -/
theorem buildVesselAnnualRows_eq (h : ∀ event ∈ events, WellFormed L event) (curatedAt : ℤ) :
    ∃ (rs : List (Report F)) (socs : Members Soc) (rows : List (Row F)),
      (rs.Pairwise fun a b => (toLex a.key : Text ×ₗ ℤ) < toLex b.key) ∧
      (∀ r, r ∈ rs ↔ Authoritative L events r) ∧
      (∀ reportId, Keeps Soc.order (statementsOf events reportId) (socs.get reportId)) ∧
      List.Forall₂ (fun p row => vesselRow L curatedAt p.1 p.2 = .ok row) (taken rs socs) rows ∧
      ((∀ s ∈ statements events, ∃ r, Authoritative L events r ∧ r.reportId = s.1) →
        buildVesselAnnualRows L events curatedAt = .ok rows) ∧
      (¬(∀ s ∈ statements events, ∃ r, Authoritative L events r ∧ r.reportId = s.1) →
        ∃ orphaned, buildVesselAnnualRows L events curatedAt = .error (orphanedError orphaned)) := by
  obtain ⟨kept, hcollect, hkept⟩ := collectEvents_keeps h
  have hmem : ∀ r, r ∈ sortReports kept.verified ↔ Authoritative L events r := fun r => by
    rw [← hkept.mem_verified]
    exact mem_sortBy
  obtain ⟨rows, hrows, htaken⟩ := gatherRows_eq curatedAt kept.socByReport
    fun r hr => reportColumns_isOk ((hmem r).1 hr).mem
  have hleft : (kept.socByReport.filter fun m =>
        m.1 ∉ (sortReports kept.verified).map Report.reportId) = [] ↔
      ∀ s ∈ statements events, ∃ r, Authoritative L events r ∧ r.reportId = s.1 := by
    rw [List.filter_eq_nil_iff]
    constructor
    · intro hnone s hs
      obtain ⟨soc, hsoc⟩ := (keepsLatest_iff.1 hkept).mem_socs.2 ⟨s, hs, rfl⟩
      have hid := hnone _ hsoc
      rw [decide_eq_true_eq, not_not] at hid
      obtain ⟨r, hr, hrs⟩ := List.mem_map.1 hid
      exact ⟨r, (hmem r).1 hr, hrs⟩
    · intro hall m hm
      obtain ⟨s, hs, hsm⟩ := (keepsLatest_iff.1 hkept).mem_socs.1 ⟨m.2, hm⟩
      obtain ⟨r, hr, hrs⟩ := hall s hs
      rw [decide_eq_true_eq, not_not]
      exact List.mem_map.2 ⟨r, (hmem r).2 hr, hrs.trans hsm⟩
  refine ⟨_, kept.socByReport, rows, pairwise_sortReports hkept.keys, hmem, hkept.soc, htaken,
    fun hall => ?_, fun hsome => ?_⟩
  · rw [buildVesselAnnualRows, hcollect, ok_bind, hrows, ok_bind]
    exact if_pos (hleft.2 hall)
  · rw [buildVesselAnnualRows, hcollect, ok_bind, hrows, ok_bind]
    exact ⟨_, if_neg (mt hleft.1 hsome)⟩

/-- An item that two pointwise relations have has one partner in both. -/
theorem exists_row {α β : Type} {R S : α → β → Prop} {as : List α} {bs : List β} {a : α}
    (h : List.Forall₂ R as bs) (h' : List.Forall₂ S as bs) (ha : a ∈ as) : ∃ b, R a b ∧ S a b := by
  induction h with
  | nil => cases ha
  | cons hR _ ih =>
    cases h' with
    | cons hS h' =>
      obtain rfl | ha := List.mem_cons.1 ha
      · exact ⟨_, hR, hS⟩
      · exact ih h' ha

/-- **The rule holds of the well-formed contents where a statement lacks a
verified report, or every statement is for the authoritative report of
exactly one vessel and year.** -/
theorem vesselAnnual_iff {curatedAt : ℤ} (h : ∀ event ∈ events, WellFormed L event) :
    MeetsRule L events curatedAt ↔ Orphan L events ∨
      ∀ s ∈ statements events, ∃! r, Authoritative L events r ∧ r.reportId = s.1 := by
  obtain ⟨rs, socs, rows, hsorted, hmem, hsocs, htaken, hok, herror⟩ :=
    buildVesselAnnualRows_eq h curatedAt
  -- an orphan makes the code raise, as it should
  by_cases horphan : Orphan L events
  · refine iff_of_true ⟨iff_of_true (herror fun hall => ?_) horphan, fun hno => absurd horphan hno⟩
      (Or.inl horphan)
    obtain ⟨s, hs, hnone⟩ := horphan
    obtain ⟨r, hr, hrs⟩ := hall s hs
    exact hnone r hr.mem hrs
  · constructor
    · rintro ⟨-, hrule⟩
      obtain ⟨rows', hrows', rs', hsorted', hmem', hright⟩ := hrule horphan
      have hall : ∀ s ∈ statements events, ∃ r, Authoritative L events r ∧ r.reportId = s.1 := by
        by_contra hsome
        obtain ⟨orphaned, herror⟩ := herror hsome
        cases hrows'.symm.trans herror
      obtain rfl := Except.ok.inj ((hok hall).symm.trans hrows')
      obtain rfl := sorted_unique hsorted hsorted' fun r => (hmem r).trans (hmem' r).symm
      refine Or.inr fun s hs => ?_
      obtain ⟨r, hr, hrs⟩ := hall s hs
      refine ⟨r, ⟨hr, hrs⟩, fun r' ⟨hr', hrs'⟩ => ?_⟩
      by_contra hne
      -- of two reports with the statement's id one has a row without a statement
      obtain ⟨x, hx, hnone⟩ := taken_twice socs ((hmem r).2 hr) ((hmem r').2 hr') (Ne.symm hne)
        (hrs'.trans hrs.symm)
      rw [← taken_fst rs socs, List.forall₂_map_left_iff] at hright
      obtain ⟨row, hrow, -, -, -, soc, hsoc, hartifact⟩ := exists_row htaken hright hnone
      rw [(vesselRow_get hrow).2.2.2, Option.map_none] at hartifact
      have hnosoc := Option.map_eq_none_iff.1 (Event.optional_eq_null.1 hartifact.symm)
      rw [hsoc.eq_none, statementsOf_eq_nil] at hnosoc
      exact hnosoc s hs (hx.trans hrs).symm
    -- a statement under one report only is found by the row of it
    · rintro (ho | hunique)
      · exact absurd ho horphan
      have hrows := hok fun s hs => (hunique s hs).exists
      refine ⟨iff_of_false ?_ horphan, fun _ => ⟨rows, hrows, rs, hsorted, hmem, ?_⟩⟩
      · rintro ⟨orphaned, herror⟩
        cases hrows.symm.trans herror
      · have hnodup : rs.Nodup := hsorted.imp fun hlt heq =>
          absurd (congrArg (fun r => toLex r.key) heq) hlt.ne
        rw [taken_of_unique hnodup, List.forall₂_map_left_iff] at htaken
        · refine htaken.imp fun r row hrow => ?_
          obtain ⟨himo, hyear, hid, hartifact⟩ := vesselRow_get hrow
          exact ⟨himo, hyear, hid, _, hsocs r.reportId, hartifact⟩
        · intro r hr r' hr' hid hsome
          have hne := mt (hsocs r.reportId).eq_none.2 hsome
          rw [statementsOf_eq_nil] at hne
          push Not at hne
          obtain ⟨s, hs, hsid⟩ := hne
          obtain ⟨a, -, ha⟩ := hunique s hs
          rw [ha r ⟨(hmem r).1 hr, hsid.symm⟩, ha r' ⟨(hmem r').1 hr', hid.symm.trans hsid.symm⟩]

/-! ### A superseded report -/

/-- A verified report of one vessel and year. -/
def reportEvent (reportId : String) (occurredAt : ℤ) : Row Decimal :=
  [("event_id", .text (lit reportId)), ("event_type", .text annualReportEventType),
    ("occurred_at", .instant occurredAt),
    ("payload_json", .text (lit "\x7b\"calendarYear\":2026,\"imoNumber\":\"9081716\"," ++
      lit "\"reportId\":\"" ++ lit reportId ++
      lit "\",\"state\":\"VERIFIED\",\"totals\":\x7b\x7d\x7d"))]

/-- The statement for a report. -/
def socEvent (reportId : String) : Row Decimal :=
  [("event_id", .text (lit "soc")), ("event_type", .text socEventType), ("occurred_at", .instant 2),
    ("payload_json", .text (lit "\x7b\"artifactSha256\":\"" ++ List.replicate 64 0x63 ++
      lit "\",\"reportId\":\"" ++ lit reportId ++ lit "\"\x7d"))]

/-- A sample event that can be read is well formed. -/
theorem wellFormed_of_isSome {L : Library} {event : Row Decimal}
    (hr : (reportOf L event).toOption.isSome = true) (hs : (statementOf event).toOption.isSome = true) :
    WellFormed L event := by
  obtain ⟨r, hr⟩ := Option.isSome_iff_exists.1 hr
  obtain ⟨s, hs⟩ := Option.isSome_iff_exists.1 hs
  exact ⟨⟨r, toOption_eq_some.1 hr⟩, s, toOption_eq_some.1 hs⟩

/-- The sample events are well formed. -/
theorem wellFormed_events : ∀ event ∈ [reportEvent "rep-1" 0, reportEvent "rep-2" 1, socEvent "rep-1"],
    WellFormed Library.ascii event := by
  intro event hevent
  simp only [List.mem_cons, List.not_mem_nil, or_false] at hevent
  obtain rfl | rfl | rfl := hevent
  all_goals exact wellFormed_of_isSome (by decide +kernel) (by decide +kernel)

/-- The rule holds of a report and its statement. -/
theorem vesselAnnual_one :
    MeetsRule Library.ascii [reportEvent "rep-1" 0, socEvent "rep-1"] 0 ∧
      ¬Orphan Library.ascii [reportEvent "rep-1" 0, socEvent "rep-1"] := by
  have hreports : (reports Library.ascii [reportEvent "rep-1" 0, socEvent "rep-1"]).length = 1 ∧
      ∀ r ∈ reports Library.ascii [reportEvent "rep-1" 0, socEvent "rep-1"],
        r.reportId = lit "rep-1" ∧ r.key = (lit "9081716", 2026) := by
    decide +kernel
  have hstatements : ∀ s ∈ statements [reportEvent "rep-1" 0, socEvent "rep-1"],
      s.1 = lit "rep-1" := by
    decide +kernel
  obtain ⟨hlength, hall⟩ := hreports
  obtain ⟨r, hr⟩ := List.exists_mem_of_length_pos (by rw [hlength]; exact Nat.one_pos)
  refine ⟨(vesselAnnual_iff fun event hevent => ?_).2 (Or.inr fun s hs => ?_), ?_⟩
  · refine wellFormed_events event ?_
    simp only [List.mem_cons, List.not_mem_nil, or_false] at hevent ⊢
    exact hevent.elim Or.inl fun h => Or.inr (Or.inr h)
  · obtain ⟨a, ha, -⟩ := exists_authoritative hr
    rw [hstatements s hs]
    refine ⟨a, ⟨ha, (hall a ha.mem).1⟩, fun r' ⟨hr', _⟩ => ?_⟩
    exact hr'.unique ha ((hall r' hr'.mem).2.trans (hall a ha.mem).2.symm)
  · rintro ⟨s, hs, hnone⟩
    exact hnone r hr ((hall r hr).1.trans (hstatements s hs).symm)

/-- The statement of a superseded report fails the run, though the report is
verified. -/
theorem vesselAnnual_not_always :
    ¬∀ (L : Library) (events : List (Row Decimal)) (curatedAt : ℤ),
      (∀ event ∈ events, WellFormed L event) → MeetsRule L events curatedAt := by
  intro h
  obtain ⟨-, hrule⟩ := h Library.ascii _ 0 wellFormed_events
  have hverified : ∀ s ∈ statements [reportEvent "rep-1" 0, reportEvent "rep-2" 1, socEvent "rep-1"],
      ∃ r ∈ reports Library.ascii [reportEvent "rep-1" 0, reportEvent "rep-2" 1, socEvent "rep-1"],
        r.reportId = s.1 := by
    decide +kernel
  obtain ⟨rows, hrows, -⟩ := hrule fun ⟨s, hs, hnone⟩ =>
    let ⟨r, hr, hid⟩ := hverified s hs
    hnone r hr hid
  have hfails : (buildVesselAnnualRows Library.ascii
      [reportEvent "rep-1" 0, reportEvent "rep-2" 1, socEvent "rep-1"] 0).toOption.isNone = true := by
    decide +kernel
  rw [hrows] at hfails
  cases hfails

end Mrv

end Lakehouse

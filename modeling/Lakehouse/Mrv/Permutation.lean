import Lakehouse.Mrv.Statement
/-!
# Reports in any order

The id of a verified report is read only where the report takes the place
of an earlier one, so a superseded report without an id raises or not as
the order has it. Apart from that the rows do not depend on the order of
the events (`annualRows_perm_iff`).
-/

namespace Lakehouse

namespace Mrv

open Ingest

variable {F : Type} [PyFloat F] (L : Library)

/-- **The order of the events does not matter**: whatever it is, the same
rows are returned, or an error is raised. -/
def OrderFree (events : List (Row F)) (curatedAt : ℤ) : Prop :=
  ∀ events' : List (Row F), events'.Perm events → ∀ rows,
    buildVesselAnnualRows L events' curatedAt = .ok rows ↔
      buildVesselAnnualRows L events curatedAt = .ok rows

/-- No verified report of a vessel and year is later. -/
def Latest (events : List (Row F)) (head : Head F) : Prop :=
  head ∈ heads L events ∧ ∀ h ∈ heads L events, h.key = head.key → h.order ≤ head.order

/-- **A content with nothing malformed but superseded reports**: every
event can be read, the latest report of each vessel and year has its id and
the columns of a row, and each statement is for one of these. -/
structure Sound (events : List (Row F)) : Prop where
  readable : ∀ event ∈ events, Readable L event
  named : ∀ head, Latest L events head → head.full ≠ none
  columns : ∀ head, Latest L events head → ∃ c, reportColumns L head.record.fields = .ok c
  owned : ∀ s ∈ statements events, ∃ head, Latest L events head ∧ head.reportId = .ok s.1

variable {L} {events events' : List (Row F)} {kept kept' : Kept F}
variable {rs rs' : List (Report F)} {ss ss' : List (Text × Soc)} {curatedAt : ℤ}

/-! ## What a permutation keeps -/

/-- The reports do not depend on the order of the events. -/
theorem heads_perm (h : events.Perm events') : (heads L events).Perm (heads L events') :=
  h.filterMap _

/-- The full reports do not depend on the order of the events. -/
theorem fullReports_perm (h : events.Perm events') :
    (fullReports L events).Perm (fullReports L events') := (heads_perm h).filterMap _

/-- The statements do not depend on the order of the events. -/
theorem statements_perm (h : events.Perm events') :
    (statements events).Perm (statements (F := F) events') := h.filterMap _

/-- The latest report does not depend on the order of the events. -/
theorem Latest.perm {head : Head F} (h : events.Perm events') (hl : Latest L events head) :
    Latest L events' head :=
  ⟨(heads_perm h).mem_iff.1 hl.1, fun x hx => hl.2 x ((heads_perm h).mem_iff.2 hx)⟩

/-- Whether a list is sound does not depend on its order. -/
theorem Sound.perm (h : events.Perm events') (hs : Sound L events) : Sound L events' where
  readable event hevent := hs.readable event (h.mem_iff.2 hevent)
  named head hl := hs.named head (hl.perm h.symm)
  columns head hl := hs.columns head (hl.perm h.symm)
  owned s hmem := by
    obtain ⟨head, hl, hid⟩ := hs.owned s ((statements_perm h).mem_iff.2 hmem)
    exact ⟨head, hl.perm h, hid⟩

/-! ## Distinct event ids -/

/-- The ids of the events. -/
def eventIds (events : List (Row F)) : List (Cell F) := events.map fun event => event.get "event_id"

/-- A record has the id of its event. -/
theorem eventRecord_eventId {event : Row F} {record : Record F} (h : eventRecord event = .ok record) :
    event.get "event_id" = .text record.eventId := by
  unfold eventRecord at h
  split at h
  · obtain ⟨_, -, h⟩ := bind_eq_ok.1 h
    split at h
    · next hid =>
      cases h
      exact hid
    · cases h
    · cases h
  · cases h

/-- A report has the id of its event. -/
theorem headOf_eventId {event : Row F} {head : Head F} (h : headOf L event = .ok (some head)) :
    event.get "event_id" = .text head.record.eventId := by
  unfold headOf at h
  split_ifs at h
  · cases h
  obtain ⟨record, hrecord, h⟩ := bind_eq_ok.1 h
  split_ifs at h
  · cases h
  obtain ⟨_, -, h⟩ := bind_eq_ok.1 h
  obtain ⟨_, -, h⟩ := bind_eq_ok.1 h
  cases h
  exact eventRecord_eventId hrecord

/-- A statement has the id of its event. -/
theorem statementOf_eventId {event : Row F} {s : Text × Soc} (h : statementOf event = .ok (some s)) :
    event.get "event_id" = .text s.2.eventId := by
  unfold statementOf at h
  split_ifs at h
  · cases h
  obtain ⟨record, hrecord, h⟩ := bind_eq_ok.1 h
  obtain ⟨soc, hsoc, h⟩ := bind_eq_ok.1 h
  cases h
  obtain ⟨_, -, hsoc⟩ := bind_eq_ok.1 hsoc
  obtain ⟨_, -, hsoc⟩ := bind_eq_ok.1 hsoc
  split_ifs at hsoc
  cases hsoc
  exact eventRecord_eventId hrecord

omit [PyFloat F] in
/-- What is read of events with distinct ids has distinct ids. -/
theorem nodup_eventId {α : Type} {read : Row F → Except PyError (Option α)} {eventId : α → Text}
    (hread : ∀ event a, read event = .ok (some a) → event.get "event_id" = .text (eventId a))
    (h : (eventIds events).Nodup) :
    ((events.filterMap fun event => (read event).toOption.join).map eventId).Nodup := by
  have hsome : ∀ event a, (read event).toOption.join = some a → read event = .ok (some a) := by
    intro event a ha
    cases hr : read event with
    | error e => rw [hr] at ha; cases ha
    | ok p => rw [hr] at ha; exact congrArg Except.ok ha
  refine List.pairwise_map.2 (List.pairwise_filterMap.2 ((List.pairwise_map.1 h).imp ?_))
  intro event event' hne a ha a' ha' heq
  refine hne ?_
  rw [hread event a (hsome event a ha), hread event' a' (hsome event' a' ha'), heq]

/-- Reports of distinct events have distinct ids. -/
theorem nodup_heads (h : (eventIds events).Nodup) :
    ((heads L events).map fun head => head.record.eventId).Nodup :=
  nodup_eventId (fun _ _ => headOf_eventId) h

/-- One report at each place of the order. -/
theorem head_eq (h : (eventIds events).Nodup) {x y : Head F} (hx : x ∈ heads L events)
    (hy : y ∈ heads L events) (heq : x.order = y.order) : x = y :=
  List.inj_on_of_nodup_map (nodup_heads h) hx hy (congrArg (fun o => (ofLex o).2) heq)

/-- The full reports are those of the heads. -/
theorem mem_fullReports {r : Report F} :
    r ∈ fullReports L events ↔ ∃ head ∈ heads L events, head.full = some r := List.mem_filterMap

omit [PyFloat F] in
/-- A report read in full is in its place. -/
theorem Head.of_full {head : Head F} {r : Report F} (h : head.full = some r) :
    r.key = head.key ∧ r.order = head.order ∧ head.reportId = .ok r.reportId ∧
      r.fields = head.record.fields := by
  unfold Head.full at h
  cases hid : head.reportId with
  | error e => rw [hid] at h; cases h
  | ok reportId =>
    rw [hid] at h
    cases h
    exact ⟨rfl, rfl, rfl, rfl⟩

/-- One full report at each place of the order. -/
theorem report_eq (h : (eventIds events).Nodup) {r r' : Report F} (hr : r ∈ fullReports L events)
    (hr' : r' ∈ fullReports L events) (heq : r.order = r'.order) : r = r' := by
  obtain ⟨head, hhead, hfull⟩ := mem_fullReports.1 hr
  obtain ⟨head', hhead', hfull'⟩ := mem_fullReports.1 hr'
  have horder : head.order = head'.order := by
    rw [← (Head.of_full hfull).2.1, ← (Head.of_full hfull').2.1, heq]
  rw [head_eq h hhead hhead' horder] at hfull
  exact Option.some.inj (hfull.symm.trans hfull')

/-- One statement at each place of the order. -/
theorem soc_eq (h : (eventIds events).Nodup) {reportId : Text} {s s' : Soc}
    (hs : s ∈ statementsOf events reportId) (hs' : s' ∈ statementsOf events reportId)
    (heq : s.order = s'.order) : s = s' := by
  have hnodup : ((statements (F := F) events).map fun s => s.2.eventId).Nodup :=
    nodup_eventId (fun _ _ => statementOf_eventId) h
  have hmem : ∀ {s : Soc}, s ∈ statementsOf (F := F) events reportId →
      (reportId, s) ∈ statements (F := F) events := by
    intro s hs
    obtain ⟨⟨_, _⟩, hp, rfl⟩ := List.mem_map.1 hs
    obtain ⟨hp, hid⟩ := List.mem_filter.1 hp
    rw [← of_decide_eq_true hid]
    exact hp
  have hpair := List.inj_on_of_nodup_map hnodup (hmem hs) (hmem hs')
    (congrArg (fun o => (ofLex o).2) heq)
  exact congrArg Prod.snd hpair

/-! ## The rows -/

/-- The rows are gathered from what is collected, with no statement left. -/
theorem buildVesselAnnualRows_eq_ok {rows : List (Row F)} :
    buildVesselAnnualRows L events curatedAt = .ok rows ↔
      ∃ kept, collectEvents L events ⟨[], []⟩ = .ok kept ∧
        gatherRows L curatedAt (sortReports kept.verified) kept.socByReport = .ok (rows, []) := by
  constructor
  · intro h
    obtain ⟨kept, hkept, h⟩ := bind_eq_ok.1 h
    obtain ⟨⟨rows', left⟩, hrows, h⟩ := bind_eq_ok.1 h
    simp only at h
    split_ifs at h with hleft
    cases h
    exact ⟨kept, hkept, by rw [hrows, hleft]⟩
  · rintro ⟨kept, hkept, hrows⟩
    rw [buildVesselAnnualRows, hkept, ok_bind, hrows, ok_bind]
    exact if_pos rfl

/-- The rows read the statements by report. -/
theorem gatherRows_congr {reports : List (Report F)} {socs socs' left : Members Soc}
    {rows : List (Row F)} (hget : ∀ reportId, socs.get reportId = socs'.get reportId)
    (h : gatherRows L curatedAt reports socs = .ok (rows, left)) :
    ∃ left', gatherRows L curatedAt reports socs' = .ok (rows, left') ∧
      ∀ reportId, left.get reportId = left'.get reportId := by
  induction reports generalizing socs socs' rows with
  | nil =>
    cases h
    exact ⟨socs', rfl, hget⟩
  | cons r reports ih =>
    obtain ⟨row, hrow, h⟩ := bind_eq_ok.1 h
    obtain ⟨⟨rows', left'⟩, hrows, h⟩ := bind_eq_ok.1 h
    cases h
    have hrest : ∀ reportId, (socs.without r.reportId).get reportId =
        (socs'.without r.reportId).get reportId := by
      intro reportId
      rw [Members.get_without, Members.get_without, hget]
    obtain ⟨left', hleft', hsame⟩ := ih hrest hrows
    refine ⟨left', ?_, hsame⟩
    rw [gatherRows, ← hget, hrow, ok_bind, hleft', ok_bind]
    rfl

/-- Nothing is left where nothing is found. -/
theorem eq_nil_of_get {β : Type} {ms : Members β} (h : ∀ key, ms.get key = none) :
    ms = [] := by
  cases ms with
  | nil => rfl
  | cons m ms =>
    have hm := h m.1
    rw [Members.get_cons, if_pos rfl] at hm
    cases hm

/-- **Equal parts make equal rows.** -/
theorem rows_eq (h : (eventIds events).Nodup) (hp : events.Perm events')
    (hkept : Holds (fullReports L events) (statements events) kept)
    (hkept' : Holds (fullReports L events') (statements events') kept') {rows : List (Row F)}
    (hrows : gatherRows L curatedAt (sortReports kept.verified) kept.socByReport = .ok (rows, [])) :
    gatherRows L curatedAt (sortReports kept'.verified) kept'.socByReport = .ok (rows, []) := by
  have hfind : ∀ key, (kept.verified.find? fun r => r.key = key) =
      kept'.verified.find? fun r => r.key = key := fun key =>
    (hkept.report key).perm (hkept'.report key) ((fullReports_perm hp).filter _)
      fun x hx y hy => report_eq h (List.mem_filter.1 hx).1 (List.mem_filter.1 hy).1
  have hget : ∀ reportId, kept.socByReport.get reportId = kept'.socByReport.get reportId :=
    fun reportId => (hkept.soc reportId).perm (hkept'.soc reportId)
      (((statements_perm hp).filter _).map _) fun x hx y hy => soc_eq h hx hy
  have hsorted : sortReports kept.verified = sortReports kept'.verified := by
    refine sorted_unique (pairwise_sortReports hkept.keys) (pairwise_sortReports hkept'.keys) ?_
    intro r
    simp only [sortReports, mem_sortBy]
    rw [← hkept.find_eq_some, ← hkept'.find_eq_some, hfind]
  obtain ⟨left', hrows', hleft⟩ := gatherRows_congr hget hrows
  rw [hsorted] at hrows'
  rw [hrows', eq_nil_of_get fun reportId => (hleft reportId).symm]

/-- **A content whose reports are all read in full has its rows in any
order.** -/
theorem rows_perm (h : (eventIds events).Nodup) (hp : events.Perm events')
    (hfull : ∀ head ∈ heads L events, head.full ≠ none) {rows : List (Row F)}
    (hrows : buildVesselAnnualRows L events curatedAt = .ok rows) :
    buildVesselAnnualRows L events' curatedAt = .ok rows := by
  obtain ⟨kept, hkept, hgather⟩ := buildVesselAnnualRows_eq_ok.1 hrows
  obtain ⟨hreadable, -, hholds⟩ := collectEvents_eq_ok holds_nil hkept
  obtain ⟨kept', hkept'⟩ := collectEvents_isOk holds_nil
    (fun event hevent => hreadable event (hp.mem_iff.2 hevent))
    fun head hhead hnone => absurd hnone (hfull head ((heads_perm hp).mem_iff.2 hhead))
  obtain ⟨-, -, hholds'⟩ := collectEvents_eq_ok holds_nil hkept'
  exact buildVesselAnnualRows_eq_ok.2 ⟨kept', hkept', rows_eq h hp hholds hholds' hgather⟩

/-! ## When an order returns rows -/

/-- Every report has a latest one of its key. -/
theorem exists_latest {head : Head F} (h : head ∈ heads L events) :
    ∃ l, Latest L events l ∧ l.key = head.key ∧ head.order ≤ l.order := by
  have hmem : head ∈ (heads L events).filter fun x => x.key = head.key :=
    List.mem_filter.2 ⟨h, decide_eq_true rfl⟩
  obtain ⟨l, hl⟩ : ∃ l, FirstGreatest Head.order ((heads L events).filter fun x => x.key = head.key) l :=
    exists_firstGreatest (List.ne_nil_of_mem hmem)
  obtain ⟨hlmem, hkey⟩ := List.mem_filter.1 hl.mem
  have hkey := of_decide_eq_true hkey
  refine ⟨l, ⟨hlmem, fun x hx hxl => hl.le x (List.mem_filter.2 ⟨hx, decide_eq_true ?_⟩)⟩, hkey,
    hl.le head hmem⟩
  rw [hxl, hkey]

/-- Of a pass that returns, the latest report of a vessel and year was read
in full. -/
theorem Latest.full (h : (eventIds events).Nodup)
    (hpass : collectEvents L events ⟨[], []⟩ = .ok kept) {head : Head F}
    (hl : Latest L events head) : head.full ≠ none := by
  intro hnone
  obtain ⟨-, hsuperseded, -⟩ := collectEvents_eq_ok holds_nil hpass
  obtain ⟨r, hr, hkey, hle⟩ := hsuperseded head hl.1 hnone
  obtain ⟨x, hx, hfull⟩ := mem_fullReports.1 hr
  obtain ⟨hxkey, hxorder, -, -⟩ := Head.of_full hfull
  have hge := hl.2 x hx (hxkey.symm.trans hkey)
  obtain rfl := head_eq h hx hl.1 (le_antisymm hge (hxorder ▸ hle))
  cases hnone.symm.trans hfull

/-- The reports a pass keeps are the latest. -/
theorem mem_verified (h : (eventIds events).Nodup)
    (hpass : collectEvents L events ⟨[], []⟩ = .ok kept) {r : Report F} :
    r ∈ kept.verified ↔ ∃ head, Latest L events head ∧ head.full = some r := by
  obtain ⟨-, -, hkept⟩ := collectEvents_eq_ok holds_nil hpass
  rw [← hkept.find_eq_some, (hkept.report r.key).eq_some]
  constructor
  · intro hgreatest
    obtain ⟨x, hx, hfull⟩ := mem_fullReports.1 (List.mem_filter.1 hgreatest.mem).1
    obtain ⟨hxkey, hxorder, -, -⟩ := Head.of_full hfull
    obtain ⟨l, hl, hlkey, hle⟩ := exists_latest hx
    obtain ⟨r', hfull'⟩ := Option.ne_none_iff_exists'.1 (hl.full h hpass)
    obtain ⟨hrkey, hrorder, -, -⟩ := Head.of_full hfull'
    have hge := hgreatest.le r' (List.mem_filter.2
      ⟨mem_fullReports.2 ⟨l, hl.1, hfull'⟩, decide_eq_true (by rw [hrkey, hlkey, hxkey])⟩)
    rw [hrorder, hxorder] at hge
    rw [head_eq h hx hl.1 (le_antisymm hle hge)] at hfull
    exact ⟨l, hl, hfull⟩
  · rintro ⟨l, hl, hfull⟩
    obtain ⟨hlkey, hlorder, -, -⟩ := Head.of_full hfull
    have hmem : r ∈ (fullReports L events).filter fun x => x.key = r.key :=
      List.mem_filter.2 ⟨mem_fullReports.2 ⟨l, hl.1, hfull⟩, decide_eq_true rfl⟩
    obtain ⟨r', hr'⟩ : ∃ r', FirstGreatest Report.order
        ((fullReports L events).filter fun x => x.key = r.key) r' :=
      exists_firstGreatest (List.ne_nil_of_mem hmem)
    obtain ⟨hr'mem, hr'key⟩ := List.mem_filter.1 hr'.mem
    obtain ⟨x, hx, hxfull⟩ := mem_fullReports.1 hr'mem
    obtain ⟨hxkey, hxorder, -, -⟩ := Head.of_full hxfull
    have hge := hl.2 x hx (by rw [← hxkey, ← hlkey]; exact of_decide_eq_true hr'key)
    have hle := hr'.le r hmem
    rw [hxorder, hlorder] at hle
    rw [head_eq h hx hl.1 (le_antisymm hge hle), hfull] at hxfull
    cases hxfull
    exact hr'

/-- A row is made of every report that is gathered. -/
theorem columns_of_gatherRows {reports : List (Report F)} {socs left : Members Soc}
    {rows : List (Row F)} (h : gatherRows L curatedAt reports socs = .ok (rows, left)) :
    ∀ r ∈ reports, ∃ c, reportColumns L r.fields = .ok c := by
  induction reports generalizing socs rows left with
  | nil => exact nofun
  | cons r reports ih =>
    obtain ⟨row, hrow, h⟩ := bind_eq_ok.1 h
    obtain ⟨⟨rows', left'⟩, hrows, -⟩ := bind_eq_ok.1 h
    obtain ⟨c, hc, -⟩ := bind_eq_ok.1 hrow
    exact List.forall_mem_cons.2 ⟨⟨c, hc⟩, ih hrows⟩

/-- **A pass that returns ends in rows where the content is sound**, and
only there. -/
theorem returns_iff (h : (eventIds events).Nodup)
    (hpass : collectEvents L events ⟨[], []⟩ = .ok kept) :
    (∃ rows, buildVesselAnnualRows L events curatedAt = .ok rows) ↔ Sound L events := by
  obtain ⟨hreadable, -, hkept⟩ := collectEvents_eq_ok holds_nil hpass
  have hmem : ∀ r, r ∈ sortReports kept.verified ↔ ∃ head, Latest L events head ∧ head.full = some r :=
    fun r => mem_sortBy.trans (mem_verified h hpass)
  have hsocs : ∀ reportId, (∃ soc, (reportId, soc) ∈ kept.socByReport) ↔
      ∃ s ∈ statements events, s.1 = reportId := fun reportId => hkept.mem_socs
  constructor
  · rintro ⟨rows, hrows⟩
    obtain ⟨kept', hpass', hgather⟩ := buildVesselAnnualRows_eq_ok.1 hrows
    obtain rfl := Except.ok.inj (hpass.symm.trans hpass')
    have hcolumns := columns_of_gatherRows hgather
    refine ⟨hreadable, fun head hl => hl.full h hpass, fun head hl => ?_, fun s hs => ?_⟩
    · obtain ⟨r, hfull⟩ := Option.ne_none_iff_exists'.1 (hl.full h hpass)
      obtain ⟨c, hc⟩ := hcolumns r ((hmem r).2 ⟨head, hl, hfull⟩)
      exact ⟨c, (Head.of_full hfull).2.2.2 ▸ hc⟩
    · obtain ⟨rows', hrows', -⟩ := gatherRows_eq curatedAt kept.socByReport hcolumns
      have hleft := (Prod.mk.inj (Except.ok.inj (hrows'.symm.trans hgather))).2
      obtain ⟨soc, hsoc⟩ := (hsocs s.1).2 ⟨s, hs, rfl⟩
      have hid := List.filter_eq_nil_iff.1 hleft _ hsoc
      rw [decide_eq_true_eq, not_not] at hid
      obtain ⟨r, hr, hrs⟩ := List.mem_map.1 hid
      obtain ⟨head, hl, hfull⟩ := (hmem r).1 hr
      exact ⟨head, hl, hrs ▸ (Head.of_full hfull).2.2.1⟩
  · intro hsound
    obtain ⟨rows, hrows, -⟩ := gatherRows_eq curatedAt kept.socByReport fun r hr => by
      obtain ⟨head, hl, hfull⟩ := (hmem r).1 hr
      obtain ⟨c, hc⟩ := hsound.columns head hl
      exact ⟨c, (Head.of_full hfull).2.2.2 ▸ hc⟩
    refine ⟨rows, buildVesselAnnualRows_eq_ok.2 ⟨kept, hpass, ?_⟩⟩
    rw [hrows, List.filter_eq_nil_iff.2]
    intro m hm
    obtain ⟨s, hs, hsm⟩ := (hsocs m.1).1 ⟨m.2, hm⟩
    obtain ⟨head, hl, hid⟩ := hsound.owned s hs
    rw [decide_eq_true_eq, not_not]
    exact List.mem_map.2 ⟨head.report s.1, (hmem _).2 ⟨head, hl, Head.full_of_ok hid⟩, hsm⟩

/-! ## The events with an id first -/

/-- An event that is no report, or one that can be read in full. -/
def isFull (L : Library) (event : Row F) : Bool :=
  match headOf L event with
  | .ok (some head) => head.full.isSome
  | _ => true

/-- An event is a full report where its head is. -/
theorem isFull_of_head {event : Row F} {head : Head F} (h : headOf L event = .ok (some head)) :
    isFull L event = head.full.isSome := by
  rw [isFull, h]

/-- Collecting one list after another. -/
theorem collectEvents_append (events later : List (Row F)) (kept : Kept F) :
    collectEvents L (events ++ later) kept =
      collectEvents L events kept >>= collectEvents L later := by
  induction events generalizing kept with
  | nil => rfl
  | cons event events ih =>
    rw [List.cons_append, collectEvents, collectEvents]
    cases addEvent L kept event with
    | error e => rfl
    | ok next => exact ih next

/-- The reports are those read of the events. -/
theorem mem_heads {head : Head F} :
    head ∈ heads L events ↔ ∃ event ∈ events, headOf L event = .ok (some head) := by
  rw [heads, List.mem_filterMap]
  refine exists_congr fun event => and_congr_right fun _ => ?_
  cases headOf L event with
  | error e => exact iff_of_false (by rintro ⟨⟩) (by rintro ⟨⟩)
  | ok p => exact ⟨fun hp => congrArg Except.ok hp, fun hp => Except.ok.inj hp⟩

/-- **Of a sound content some order returns rows.** -/
theorem Sound.exists_order (h : (eventIds events).Nodup) (hsound : Sound L events) (curatedAt : ℤ) :
    ∃ events', events'.Perm events ∧
      ∃ rows, buildVesselAnnualRows L events' curatedAt = .ok rows := by
  have hperm : (events.filter (isFull L) ++ events.filter fun e => !isFull L e).Perm events :=
    List.filter_append_perm _ _
  refine ⟨_, hperm, ?_⟩
  have hnamed : ∀ head ∈ heads L (events.filter (isFull L)), head.full ≠ none := by
    intro head hhead hnone
    obtain ⟨event, hevent, hh⟩ := mem_heads.1 hhead
    have hfull := (List.mem_filter.1 hevent).2
    rw [isFull_of_head hh, hnone] at hfull
    cases hfull
  obtain ⟨kept, hkept⟩ : ∃ kept, collectEvents L (events.filter (isFull L)) ⟨[], []⟩ = .ok kept :=
    collectEvents_isOk holds_nil
      (fun event hevent => hsound.readable event (List.mem_filter.1 hevent).1)
      fun head hhead hnone => absurd hnone (hnamed head hhead)
  obtain ⟨-, -, hholds⟩ := collectEvents_eq_ok holds_nil hkept
  have hlatest : ∀ head ∈ heads L (events.filter fun e => !isFull L e), head.full = none →
      Superseded ([] ++ fullReports L (events.filter (isFull L))) head := by
    intro head hhead _
    obtain ⟨event, hevent, hh⟩ := mem_heads.1 hhead
    obtain ⟨l, hl, hkey, hle⟩ :=
      exists_latest (mem_heads.2 ⟨event, (List.mem_filter.1 hevent).1, hh⟩)
    obtain ⟨r, hfull⟩ := Option.ne_none_iff_exists'.1 (hsound.named l hl)
    obtain ⟨hrkey, hrorder, -, -⟩ := Head.of_full hfull
    obtain ⟨e, he, hel⟩ := mem_heads.1 hl.1
    have hisFull : isFull L e = true := by rw [isFull_of_head hel, hfull, Option.isSome_some]
    exact ⟨r, mem_fullReports.2 ⟨l, mem_heads.2 ⟨e, List.mem_filter.2 ⟨he, hisFull⟩, hel⟩, hfull⟩,
      hrkey.trans hkey, hrorder ▸ hle⟩
  obtain ⟨kept', hkept'⟩ := collectEvents_isOk hholds
    (fun event hevent => hsound.readable event (List.mem_filter.1 hevent).1) hlatest
  have hpass : collectEvents L (events.filter (isFull L) ++ events.filter fun e => !isFull L e)
      ⟨[], []⟩ = .ok kept' := by
    rw [collectEvents_append, hkept, ok_bind, hkept']
  exact (returns_iff ((hperm.map _).nodup_iff.2 h) hpass).2 (hsound.perm hperm.symm)

/-- A report without an id raises where it comes first. -/
theorem addEvent_unnamed {event : Row F} {head : Head F} (hhead : headOf L event = .ok (some head))
    (hnone : head.full = none) : addEvent L ⟨[], []⟩ event ≠ .ok kept := by
  rw [addEvent_eq]
  intro h
  obtain ⟨s, -, h⟩ := bind_eq_ok.1 h
  rw [hhead, ok_bind] at h
  have hlater : isLater (keepStatement (⟨[], []⟩ : Kept F) s) head = true := by
    cases s <;> rfl
  simp only [addHead, hlater, if_true] at h
  obtain ⟨reportId, hid, -⟩ := bind_eq_ok.1 h
  cases (Head.full_of_ok hid).symm.trans hnone

/-- **The order of events with distinct ids does not matter where every
verified report has its id, or the content is malformed in more than
superseded reports.** -/
theorem annualRows_perm_iff (h : (eventIds events).Nodup) :
    OrderFree L events curatedAt ↔
      (∀ head ∈ heads L events, head.full ≠ none) ∨ ¬Sound L events := by
  constructor
  · intro hfree
    by_contra hcon
    rw [not_or, not_not] at hcon
    obtain ⟨hunnamed, hsound⟩ := hcon
    push Not at hunnamed
    obtain ⟨head, hhead, hnone⟩ := hunnamed
    obtain ⟨events', hperm, rows, hrows⟩ := hsound.exists_order h curatedAt
    have hrows := (hfree events' hperm rows).1 hrows
    -- the order with the report without an id in front
    obtain ⟨event, hevent, hread⟩ := mem_heads.1 hhead
    obtain ⟨pre, post, rfl⟩ := List.append_of_mem hevent
    have hfirst := (hfree (event :: (pre ++ post)) List.perm_middle.symm rows).2 hrows
    obtain ⟨kept, hkept, -⟩ := buildVesselAnnualRows_eq_ok.1 hfirst
    obtain ⟨next, hnext, -⟩ := bind_eq_ok.1 hkept
    exact addEvent_unnamed hread hnone hnext
  · rintro (hfull | hunsound)
    · intro events' hp rows
      refine ⟨rows_perm ((hp.map _).nodup_iff.2 h) hp fun head hhead => ?_, rows_perm h hp.symm hfull⟩
      exact hfull head ((heads_perm hp).mem_iff.1 hhead)
    · have hraises : ∀ events' : List (Row F), events'.Perm events → ∀ rows,
          buildVesselAnnualRows L events' curatedAt ≠ .ok rows := by
        intro events' hp rows hrows
        obtain ⟨kept, hkept, -⟩ := buildVesselAnnualRows_eq_ok.1 hrows
        exact hunsound (((returns_iff ((hp.map _).nodup_iff.2 h) hkept).1 ⟨rows, hrows⟩).perm hp)
      intro events' hp rows
      exact iff_of_false (hraises events' hp rows) (hraises events .rfl rows)

/-- Two reports of one vessel and year. -/
theorem annualRows_perm_two :
    OrderFree Library.ascii [reportEvent "rep-1" 0, reportEvent "rep-2" 1] 0 :=
  (annualRows_perm_iff (by decide +kernel)).2 (Or.inl (by decide +kernel))

/-- A verified report without an id. -/
def unnamedEvent : Row Decimal :=
  [("event_id", .text (lit "rep-0")), ("event_type", .text annualReportEventType),
    ("occurred_at", .instant 0),
    ("payload_json", .text (lit "\x7b\"calendarYear\":2026,\"imoNumber\":\"9081716\"," ++
      lit "\"state\":\"VERIFIED\",\"totals\":\x7b\x7d\x7d"))]

/-- A superseded report without an id raises where it comes first, and does
not where it comes last. -/
theorem annualRows_perm_not_always :
    ¬∀ (L : Library) (events : List (Row Decimal)) (curatedAt : ℤ), (eventIds events).Nodup →
      OrderFree L events curatedAt := by
  intro h
  have hfree := h Library.ascii [unnamedEvent, reportEvent "rep-2" 1] 0 (by decide +kernel)
  have hlast : (buildVesselAnnualRows Library.ascii
      [reportEvent "rep-2" 1, unnamedEvent] 0).toOption.isSome = true := by
    decide +kernel
  have hfirst : (buildVesselAnnualRows Library.ascii
      [unnamedEvent, reportEvent "rep-2" 1] 0).toOption.isSome = false := by
    decide +kernel
  obtain ⟨rows, hrows⟩ := Option.isSome_iff_exists.1 hlast
  have hsame := (hfree [reportEvent "rep-2" 1, unnamedEvent] (.swap _ _ _) rows).1
    (toOption_eq_some.1 hrows)
  rw [hsame] at hfirst
  cases hfirst

end Mrv

end Lakehouse

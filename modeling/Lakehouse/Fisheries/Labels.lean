import Lakehouse.Fisheries.Groups
import Lakehouse.Delta.Running
import Lakehouse.Delta.Writes
/-!
# Labels through the first append

A table takes its columns from the first row of the batch that creates it,
and a row has the column of its label only where it carries one. So the
labels of that batch are all kept or, where the first row has none, all
lost (`createEvents_labels`), and with them the floors of the consignments.
-/

namespace Lakehouse

namespace Fisheries

open Ingest

variable {F : Type} [PyFloat F] {L : Library}

/-! ## Events read twice -/

/-- The columns the assembly reads of an event. -/
def sourceColumns : List String :=
  ["event_id", "event_type", "occurred_at", "payload_json", "record_classification"]

/-- Two rows the assembly cannot tell apart. -/
def SameSource (e e' : Row F) : Prop := ∀ c ∈ sourceColumns, e.get c = e'.get c

variable {e e' : Row F}

omit [PyFloat F] in
/-- Being of the same source is symmetric. -/
theorem SameSource.symm (h : SameSource e e') : SameSource e' e := fun c hc => (h c hc).symm

/-- Rows of the same source decode alike. -/
theorem SameSource.sourceEvent (h : SameSource e e') :
    sourceEvent L e' = (fun p => (p.1, { p.2 with row := e' })) <$> sourceEvent L e := by
  have hid := h "event_id" (by decide)
  have htype := h "event_type" (by decide)
  have hat := h "occurred_at" (by decide)
  have hpayload : parsePayload L e = parsePayload L e' := by
    funext eventId
    rw [parsePayload, parsePayload, h "payload_json" (by decide)]
  unfold Fisheries.sourceEvent
  rw [hid, htype, hat, hpayload]
  cases nonEmptyText (e'.get "event_id") with
  | none => rfl
  | some eventId =>
    cases nonEmptyText (e'.get "event_type") with
    | none => rfl
    | some eventType =>
      cases e'.get "occurred_at" with
      | instant us =>
        dsimp only
        cases parsePayload L e' eventId with
        | error _ => rfl
        | ok payload => cases h : consignmentId L payload eventId <;> simp [h]
      | _ => rfl

/-- Rows of the same source are of the same consignment. -/
theorem SameSource.consignmentOf (h : SameSource e e') : consignmentOf L e = consignmentOf L e' := by
  rw [Fisheries.consignmentOf, Fisheries.consignmentOf, h.sourceEvent]
  cases Fisheries.sourceEvent L e <;> rfl

omit [PyFloat F] in
/-- Rows of the same source have the same clearance. -/
theorem SameSource.clearanceOf (h : SameSource e e') : clearanceOf L e = clearanceOf L e' := by
  rw [Fisheries.clearanceOf, Fisheries.clearanceOf, h "record_classification" (by decide)]

/-- Rows of the same source are accepted together. -/
theorem SameSource.accepted (h : SameSource e e') (ha : Accepted L e) : Accepted L e' := by
  obtain ⟨k, s, g, hs, hg⟩ := ha
  have hfloor : eventClearanceFloor L e' s.eventId = eventClearanceFloor L s.row s.eventId := by
    rw [(sourceEvent_eq_ok hs).1, eventClearanceFloor, eventClearanceFloor,
      h "record_classification" (by decide)]
  obtain ⟨g', hg'⟩ := joinGroup_again none hfloor hg
  exact ⟨k, _, g', by rw [h.sourceEvent, hs]; rfl, hg'⟩

/-- **Floors do not depend on the order** of the events, nor on what the
assembly does not read of them. -/
theorem groupEvents_floors {events events' : List (Row F)}
    (h : ∀ e ∈ events, ∃ e' ∈ events', SameSource e e')
    (h' : ∀ e' ∈ events', ∃ e ∈ events, SameSource e e') {groups : Members (Group F)}
    (hgroups : groupEvents L events = .ok groups) : ∃ groups',
      groupEvents L events' = .ok groups' ∧ ∀ consignment,
        (groups'.get consignment).map Group.clearanceFloor =
          (groups.get consignment).map Group.clearanceFloor := by
  obtain ⟨groups', hgroups'⟩ : ∃ groups', groupEvents L events' = .ok groups' := by
    refine groupEvents_isOk.2 fun e' he' => ?_
    obtain ⟨e, he, hee'⟩ := h' e' he'
    exact hee'.accepted (groupEvents_isOk.1 ⟨groups, hgroups⟩ e he)
  refine ⟨groups', hgroups', fun consignment => ?_⟩
  have hnone : groups.get consignment = none ↔ groups'.get consignment = none := by
    rw [groupEvents_get_eq_none hgroups, groupEvents_get_eq_none hgroups']
    constructor
    · intro hall e' he' hk
      obtain ⟨e, he, hee'⟩ := h' e' he'
      exact hall e he (hee'.consignmentOf.trans hk)
    · intro hall e he hk
      obtain ⟨e', he', hee'⟩ := h e he
      exact hall e' he' (hee'.consignmentOf.symm.trans hk)
  cases hg : groups.get consignment with
  | none => rw [hnone.1 hg]
  | some g =>
    cases hg' : groups'.get consignment with
    | none =>
      rw [hnone.2 hg'] at hg
      cases hg
    | some g' =>
      have hle : ∀ c, g'.clearanceFloor ≤ c ↔ g.clearanceFloor ≤ c := by
        intro c
        rw [floor_le_iff hgroups' hg', floor_le_iff hgroups hg]
        constructor
        · intro hall e he hk
          obtain ⟨e', he', hee'⟩ := h e he
          rw [hee'.clearanceOf]
          exact hall e' he' (hee'.consignmentOf.symm.trans hk)
        · intro hall e' he' hk
          obtain ⟨e, he, hee'⟩ := h' e' he'
          rw [← hee'.clearanceOf]
          exact hall e he (hee'.consignmentOf.trans hk)
      rw [Option.map_some, Option.map_some,
        le_antisymm ((hle _).2 le_rfl) ((hle _).1 le_rfl)]

/-! ## The first append -/

variable {E : Engine F} {w w' : World F} {uri : Text} {events : List Event}
  {description : Option Text}

/-- **Every label is stored as it came**: under an event's id, its label, or
none where it has none. -/
def LabelsKept (events : List Event) (table : Table F) : Prop :=
  ∀ e ∈ events, ∃ u ∈ table.rows, u.get "event_id" = .text e.eventId ∧
    u.get "record_classification" = Event.optional e.recordClassification

/-- **Every floor is kept**: in whatever order the table is read, the floors
are those of the batch. -/
def FloorsKept (L : Library) (events : List Event) (table : Table F) : Prop :=
  ∀ groups, groupEvents L (events.map (Event.row (F := F))) = .ok groups →
    ∀ rows, rows.Perm (table.read (bronzeColumns table) none) → ∃ groups',
      groupEvents L rows = .ok groups' ∧ ∀ consignment,
        (groups'.get consignment).map Group.clearanceFloor =
          (groups.get consignment).map Group.clearanceFloor

/-- The condition: the first row is labelled, or none is. -/
def FirstLabelled (events : List Event) : Prop :=
  (∃ e ∈ events.head?, e.recordClassification.isSome) ∨
    ∀ e ∈ events, e.recordClassification = none

omit [PyFloat F] in
/-- **What a stored row has of its event**: its columns, but for the label,
and the label where the first event has one. -/
theorem get_project_first {first e : Event} (c : String) (hc : c ∈ sourceColumns)
    (h : c = "record_classification" → first.recordClassification.isSome ∨
      e.recordClassification = none) :
    ((e.row : Row F).project (first.row : Row F).columns).get c = (e.row : Row F).get c := by
  by_cases hmem : c ∈ (first.row : Row F).columns
  · exact Row.get_project_of_mem hmem
  -- only the label may be missing from the first row
  have hlabel : c = "record_classification" := by
    have hcolumns : ∀ c ∈ sourceColumns, c = "record_classification" ∨
        c ∈ eventIdentityColumns := by decide
    refine (hcolumns c hc).resolve_right fun hid => hmem ?_
    rw [← Event.guarded_row (F := F) first] at hid
    exact (List.mem_filter.1 hid).1
  subst hlabel
  have hnone : e.recordClassification = none :=
    (h rfl).resolve_left fun hsome => hmem (first.mem_columns_label.2 hsome)
  rw [Event.get_label, hnone, Row.get_of_notMem (by rwa [Row.project_columns])]
  rfl

omit [PyFloat F] in
/-- A table of events takes its columns from the first. -/
theorem fromPylist_events {first : Event} {source : ArrowTable F}
    (h : ArrowTable.fromPylist ((first :: events).map Event.row) none = .ok source) :
    source.columns = (first.row : Row F).columns ∧ source.rows =
      (first :: events).map fun e => (e.row : Row F).project (first.row : Row F).columns := by
  have hrows := fromPylist_rows h
  unfold ArrowTable.fromPylist at h
  simp only at h
  split_ifs at h
  cases h
  exact ⟨rfl, by rw [hrows, List.map_map]; rfl⟩

/-- **Labels through the first append.** The labels of the batch that creates
a table are stored, and the floors of its consignments kept, exactly when
its first row has a label or none of its rows has. -/
theorem createEvents_labels {a : Appended} (hne : events ≠ [])
    (hids : (events.map Event.eventId).Nodup) (hw : w.tables uri = [])
    (h : (appendEvents L uri (events.map Event.row) description).run E.handle w = (.ok a, w')) :
    ∃ table, w'.tables uri = [table] ∧
      (LabelsKept events table ∧ FloorsKept L events table ↔ FirstLabelled events) := by
  obtain ⟨source, hsource, rfl⟩ := created_of_run hw h
  refine ⟨World.created source, by rw [World.push_tables_self, hw], ?_⟩
  obtain ⟨first, rest, rfl⟩ := List.exists_cons_of_ne_nil hne
  obtain ⟨hcolumns, hrows⟩ := fromPylist_events hsource
  have hstored : ∀ e ∈ first :: rest, (e.row : Row F).project (first.row : Row F).columns ∈
      (World.created source).rows := by
    intro e he
    rw [World.created, hrows]
    exact List.mem_map_of_mem he
  constructor
  · rintro ⟨hkept, -⟩
    by_contra hcond
    obtain ⟨hfirst, hnone⟩ := not_or.1 hcond
    -- the first row has no label, so neither has the table
    have hlost : ∀ e : Event, ((e.row : Row F).project (first.row : Row F).columns).get
        "record_classification" = .null := fun e =>
      Row.get_of_notMem fun hc => hfirst ⟨first, rfl, by
        rwa [Row.project_columns, Event.mem_columns_label] at hc⟩
    refine hnone fun e he => ?_
    obtain ⟨u, hu, -, hlabel⟩ := hkept e he
    rw [World.created, hrows] at hu
    obtain ⟨e', -, rfl⟩ := List.mem_map.1 hu
    rw [hlost e'] at hlabel
    exact Event.optional_eq_null.1 hlabel.symm
  intro hcond
  have hget : ∀ e ∈ first :: rest, ∀ c ∈ sourceColumns,
      ((e.row : Row F).project (first.row : Row F).columns).get c = (e.row : Row F).get c := by
    intro e he c hc
    refine get_project_first c hc fun _ => ?_
    obtain ⟨f, hf, hsome⟩ | hnone := hcond
    · exact Or.inl (Option.some.inj hf ▸ hsome)
    · exact Or.inr (hnone e he)
  refine ⟨fun e he => ⟨_, hstored e he, ?_, ?_⟩, fun groups hgroups rows hperm => ?_⟩
  · rw [hget e he _ (by decide), Event.get_eventId]
  · rw [hget e he _ (by decide), Event.get_label]
  -- a row read has what the assembly reads of its event
  have hread : ∀ e ∈ first :: rest, SameSource (e.row : Row F)
      (((e.row : Row F).project (first.row : Row F).columns).project
        (bronzeColumns (World.created source))) := by
    intro e he c hc
    rw [← hget e he c hc]
    by_cases hmem : c ∈ bronzeColumns (World.created source)
    · exact (Row.get_project_of_mem hmem).symm
    have hnot : c ∉ (first.row : Row F).columns := by
      intro hcol
      have hlabel : c ∈ ["event_id", "event_type", "occurred_at", "payload_json"] ∨
          c = "record_classification" := by
        have hsplit : ∀ c ∈ sourceColumns, c ∈ ["event_id", "event_type", "occurred_at",
            "payload_json"] ∨ c = "record_classification" := by decide
        exact hsplit c hc
      refine hmem (List.mem_append.2 (hlabel.imp_right fun hl => ?_))
      subst hl
      rw [if_pos (by rw [World.created, hcolumns]; exact hcol)]
      exact List.mem_singleton.2 rfl
    rw [Row.get_of_notMem (by rwa [Row.project_columns]),
      Row.get_of_notMem (by rwa [Row.project_columns])]
  have hreadRows : (World.created source).read (bronzeColumns (World.created source)) none =
      (first :: rest).map fun e => ((e.row : Row F).project (first.row : Row F).columns).project
        (bronzeColumns (World.created source)) := by
    simp [Table.read, World.created, hrows]
  refine groupEvents_floors (fun r hr => ?_) (fun r hr => ?_) hgroups
  · obtain ⟨e, he, rfl⟩ := List.mem_map.1 hr
    refine ⟨_, hperm.mem_iff.2 ?_, hread e he⟩
    rw [hreadRows]
    exact List.mem_map_of_mem he
  · rw [hperm.mem_iff, hreadRows] at hr
    obtain ⟨e, he, rfl⟩ := List.mem_map.1 hr
    exact ⟨_, List.mem_map_of_mem he, hread e he⟩

/-- A normalized catch, with or without a label. -/
def normalizedCatch (eventId : String) (label : Option Text) : Event where
  eventId := lit eventId
  eventType := lit "fisheries.catch.v1"
  producer := lit "catch-service"
  occurredAt := 0
  recordedAt := 0
  dataClassification := lit "fisheries_operational"
  sourceSystem := lit "catch-service"
  sourceRecordReference := lit "b1"
  correlationId := none
  payloadJson := lit "\x7b\"catchWeightKg\":40,\"consignmentId\":\"C-" ++ lit eventId ++
    lit "\",\"speciesCode\":\"YFT\"\x7d"
  ingestedAt := 0
  recordClassification := label

def bronzeUri : Text := lit "/srv/lakehouse/fisheries/fisheries_bronze/events"

/-- The first append of a batch. -/
def createEvents (events : List Event) : Except PyError Appended × World Decimal :=
  (appendEvents Library.ascii bronzeUri (events.map Event.row) none).run
    (Engine.plain Decimal).handle ⟨fun _ => [], [], [], fun _ => none, 0⟩

def restrictedCatch : Event := normalizedCatch "e1" (some (lit "RESTRICTED"))

def unlabelledCatch : Event := normalizedCatch "e2" none

/-- An unlabelled catch before a restricted one: the label is lost. -/
theorem createEvents_labels_lost : ∃ table,
    (createEvents [unlabelledCatch, restrictedCatch]).1 = .ok ⟨0, 2, 0⟩ ∧
    (createEvents [unlabelledCatch, restrictedCatch]).2.tables bronzeUri = [table] ∧
    ¬LabelsKept [unlabelledCatch, restrictedCatch] table := by
  have hnull : ∀ table ∈ (createEvents [unlabelledCatch, restrictedCatch]).2.tables bronzeUri,
      ∀ u ∈ table.rows, u.get "record_classification" = .null := by decide +kernel
  obtain ⟨table, htable⟩ := List.length_eq_one_iff.1
    (show ((createEvents [unlabelledCatch, restrictedCatch]).2.tables bronzeUri).length = 1 by
      decide +kernel)
  refine ⟨table, by decide +kernel, htable, fun hkept => ?_⟩
  obtain ⟨u, hu, -, hlabel⟩ := hkept restrictedCatch (List.mem_cons_of_mem _ List.mem_cons_self)
  rw [htable] at hnull
  rw [hnull table List.mem_cons_self u hu] at hlabel
  cases hlabel

/-- The other way round both are stored as they came. -/
theorem createEvents_labels_kept : ∃ table : Table Decimal,
    (createEvents [restrictedCatch, unlabelledCatch]).2.tables bronzeUri = [table] ∧
    LabelsKept [restrictedCatch, unlabelledCatch] table ∧
    FloorsKept Library.ascii [restrictedCatch, unlabelledCatch] table := by
  have hok : (createEvents [restrictedCatch, unlabelledCatch]).1 = .ok ⟨0, 2, 0⟩ := by
    decide +kernel
  obtain ⟨table, htable, hiff⟩ := createEvents_labels (L := Library.ascii)
    (E := Engine.plain Decimal) (List.cons_ne_nil _ _) (by decide) rfl (Prod.ext hok rfl)
  exact ⟨table, htable, hiff.2 (Or.inl ⟨restrictedCatch, rfl, rfl⟩)⟩

end Fisheries

end Lakehouse

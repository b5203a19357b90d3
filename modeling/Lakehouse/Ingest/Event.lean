import Lakehouse.Delta.History
/-!
# Normalized events

The row `normalize_event` makes of an event, as a record. Every row of it
has the same guarded columns, those of `EVENT_IDENTITY_COLUMNS`, and none
of them holds a float.
-/

namespace Lakehouse

/-- **A normalized event.** -/
structure Event where
  eventId : Text
  eventType : Text
  producer : Text
  occurredAt : ℤ
  recordedAt : ℤ
  dataClassification : Text
  sourceSystem : Text
  sourceRecordReference : Text
  correlationId : Option Text
  payloadJson : Text
  ingestedAt : ℤ
  recordClassification : Option Text
  deriving DecidableEq

/-- `EVENT_IDENTITY_COLUMNS`. -/
def eventIdentityColumns : List String :=
  ["event_id", "event_type", "producer", "occurred_at", "recorded_at", "data_classification",
    "source_system", "source_record_reference", "correlation_id", "payload_json"]

namespace Event

variable {F : Type}

/-- A text, or null. -/
def optional (t : Option Text) : Cell F := (t.map Cell.text).getD .null

/-- **The row of an event.** The label of a record is a column only where
there is one. -/
def row (e : Event) : Row F :=
  [("event_id", .text e.eventId), ("event_type", .text e.eventType),
    ("producer", .text e.producer), ("occurred_at", .instant e.occurredAt),
    ("recorded_at", .instant e.recordedAt),
    ("data_classification", .text e.dataClassification), ("source_system", .text e.sourceSystem),
    ("source_record_reference", .text e.sourceRecordReference),
    ("correlation_id", optional e.correlationId), ("payload_json", .text e.payloadJson),
    ("ingested_at", .instant e.ingestedAt)] ++
  (e.recordClassification.map fun label => ("record_classification", Cell.text label)).toList

/-- The replay guard looks at the identity columns of an event. -/
theorem guarded_row (e : Event) : Ingest.guarded (e.row : Row F) = eventIdentityColumns := by
  unfold row Ingest.guarded Row.columns
  cases e.recordClassification <;> rfl

/-- The columns of an event without a label. -/
theorem columns_row {e : Event} (h : e.recordClassification = none) :
    (e.row : Row F).columns = eventIdentityColumns ++ ["ingested_at"] := by
  rw [row, h]
  rfl

/-- The id column of an event's row. -/
@[simp] theorem get_eventId (e : Event) : (e.row : Row F).get "event_id" = .text e.eventId := by
  unfold row
  cases e.recordClassification <;> rfl

/-- The type column of an event's row. -/
@[simp] theorem get_eventType (e : Event) :
    (e.row : Row F).get "event_type" = .text e.eventType := by
  unfold row
  cases e.recordClassification <;> rfl

/-- The classification column of an event's row. -/
@[simp] theorem get_dataClassification (e : Event) :
    (e.row : Row F).get "data_classification" = .text e.dataClassification := by
  unfold row
  cases e.recordClassification <;> rfl

/-- The payload column of an event's row. -/
@[simp] theorem get_payloadJson (e : Event) :
    (e.row : Row F).get "payload_json" = .text e.payloadJson := by
  unfold row
  cases e.recordClassification <;> rfl

/-- The label column of an event's row. -/
theorem get_label (e : Event) :
    (e.row : Row F).get "record_classification" = optional e.recordClassification := by
  unfold row
  cases e.recordClassification <;> rfl

/-- A row has the label column where its event has a label. -/
theorem mem_columns_label (e : Event) :
    "record_classification" ∈ (e.row : Row F).columns ↔ e.recordClassification.isSome := by
  unfold row Row.columns
  cases e.recordClassification <;> simp

/-- An optional text is null where there is none. -/
theorem optional_eq_null {t : Option Text} : (optional t : Cell F) = .null ↔ t = none := by
  cases t <;> simp [optional]

/-- What Arrow makes of a batch of events keeps their guarded columns. -/
theorem source_get {events : List Event} {source : ArrowTable F}
    (h : ArrowTable.fromPylist (events.map Event.row) none = .ok source) {r : Row F}
    (hr : r ∈ source.rows) :
    ∃ e ∈ events, ∀ c ∈ eventIdentityColumns, r.get c = (e.row : Row F).get c := by
  unfold ArrowTable.fromPylist at h
  simp only at h
  split_ifs at h
  cases h
  obtain ⟨_, hrow, rfl⟩ := List.mem_map.1 hr
  obtain ⟨e, he, rfl⟩ := List.mem_map.1 hrow
  refine ⟨e, he, fun c hc => Row.get_project_of_mem ?_⟩
  cases events with
  | nil => cases he
  | cons first events =>
    have hc' : c ∈ Ingest.guarded (first.row : Row F) := by rwa [guarded_row]
    exact (List.mem_filter.1 hc').1

/-- No guarded column of an event differs from itself. -/
theorem eq_self [PyFloat F] (e : Event) :
    ∀ c ∈ eventIdentityColumns, ((e.row : Row F).get c).eq ((e.row : Row F).get c) = true := by
  obtain ⟨_, _, _, _, _, _, _, _, correlationId, _, _, label⟩ := e
  cases correlationId <;> cases label <;>
    simp [row, optional, eventIdentityColumns, Row.get, List.lookup_cons, Cell.eq]

end Event

/-- **A batch of events** with pairwise distinct ids is one to append. -/
theorem Batch.events {F : Type} {events : List Event} (hne : events ≠ [])
    (hn : (events.map Event.eventId).Nodup) :
    Batch (F := F) "event_id" eventIdentityColumns (events.map Event.row) none where
  guard := by
    cases events with
    | nil => exact absurd rfl hne
    | cons e events =>
      rw [List.map_cons, Ingest.replayGuardColumns, if_pos, Event.guarded_row]
      intro s hs
      obtain ⟨e', -, rfl⟩ := List.mem_map.1 hs
      rw [Event.guarded_row, Event.guarded_row]
  key := by decide
  text := by
    intro r hr
    obtain ⟨e, -, rfl⟩ := List.mem_map.1 hr
    exact ⟨_, e.get_eventId⟩
  nodup := by
    rw [List.map_map]
    have h : ((fun r : Row F => r.get "event_id") ∘ Event.row) = Cell.text ∘ Event.eventId :=
      funext fun e => e.get_eventId
    rw [h, ← List.map_map]
    exact hn.map fun _ _ h => Cell.text.inj h
  schema := nofun

end Lakehouse

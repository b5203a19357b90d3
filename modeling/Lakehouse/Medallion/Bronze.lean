import Lakehouse.Common.Decimal
import Lakehouse.Delta.Ends
import Lakehouse.Ingest.Decode
import Lakehouse.Kafka.Run
import Lakehouse.Retention.Enforce
/-!
# The bronze layer

The writers of the segregated bronze tables and the count of their records
by retention tier. `append_bronze` and `append_scope_bronze` guard a batch
and append it as `append_events` does; none of the three looks for an event
that its own batch repeats, so a table holds one row for each event as long
as no batch brings a new event twice (`one_row_per_event_iff`).
-/

namespace Lakehouse

namespace Medallion

open Ingest Segregation LakehouseScope

variable {F : Type} [PyFloat F] (L : Library)

/-! ## The guard -/

/-- `repr` of a value. -/
def reprCell : Cell F → Text
  | .text t => L.reprText t
  | c => c.str

/-- `enforce_event_scope`, of rows. -/
def enforceEventScope (scope : LakehouseScope) : List (Row F) → Except PyError Unit
  | [] => .ok ()
  | r :: rows =>
    match r.get "data_classification" with
    | .text classification => do
      let eventScope ← scopeForClassification L classification
      if eventScope ≠ scope then
        .error (.boundaryViolation (scope.value ++ lit " writer cannot accept event " ++
          reprCell L (r.get "event_id") ++ lit " classified " ++ L.reprText classification ++
          lit "; it belongs to the " ++ eventScope.value ++ lit " boundary"))
      else enforceEventScope scope rows
    | _ => .error (.boundaryViolation (lit "event is missing a string data_classification"))

/-- The rows of events pass as the events do. -/
theorem enforceEventScope_rows (scope : LakehouseScope) (events : List Event) :
    enforceEventScope L scope (events.map Event.row : List (Row F)) =
      Kafka.enforceEventScope L scope events := by
  induction events with
  | nil => rfl
  | cons e events ih =>
    rw [List.map_cons, enforceEventScope, Event.get_dataClassification, Event.get_eventId, ih]
    rfl

/-- The topic of a batch, where it comes from one. -/
def enforceTopic (topic : Option Text) (scope : LakehouseScope) : Except PyError Unit :=
  match topic with
  | some topic => enforceTopicScope L topic scope
  | none => .ok ()

/-- **`writer.guard_write`.** -/
def guardWrite (writer : SegregatedDeltaWriter L) (layer : Text) (events : List (Row F))
    (kafkaTopic : Option Text) : Except PyError Text :=
  if events = [] then
    .error (.boundaryViolation (lit "refusing to write an empty event batch"))
  else do
    let targetUri ← writer.tableUri layer
    enforceTopic L kafkaTopic writer.scope
    enforceEventScope L writer.scope events
    return targetUri

/-! ## The writers -/

/-- `RetentionPolicy()`. -/
def defaultPolicy : Retention.RetentionPolicy :=
  ⟨30, 7, Retention.hot_thirty, Retention.cold_seven, Retention.thirty_days_before_seven_years⟩

/-- `as_table_description`. -/
def asTableDescription (policy : Retention.RetentionPolicy) (scopeLabel : Text) : Text :=
  scopeLabel ++ lit " segregated bronze table (raw validated envelopes); retention: hot=" ++
    Text.ofInt policy.hotDays ++ lit "d, cold=" ++ Text.ofInt policy.coldYears ++ lit "y"

/-- **`append_bronze`.** -/
def appendBronze (writer : SegregatedDeltaWriter L) (events : List (Row F))
    (kafkaTopic : Option Text) (retention : Option Retention.RetentionPolicy) :
    Script F Appended := do
  let tableUri ← Script.pure (guardWrite L writer (lit "bronze") events kafkaTopic)
  appendEvents L tableUri events
    (some (asTableDescription (retention.getD defaultPolicy) (upperAscii writer.scope.value)))

/-- `require_generic_medallion_scope`. -/
def requireGenericMedallionScope (scope : LakehouseScope) : Except PyError Unit :=
  if scope = .mrv ∨ scope = .bluecarbon then .ok ()
  else .error (.boundaryViolation (lit "the generic bronze/silver medallion pipeline is only defined for [" ++
    Text.join (lit ", ") ([bluecarbon, mrv].map fun s => L.reprText s.value) ++ lit "]; got " ++
    L.reprText scope.value))

/-- **`append_scope_bronze`.** -/
def appendScopeBronze (writer : SegregatedDeltaWriter L) (events : List (Row F))
    (kafkaTopic : Option Text) (retention : Option Retention.RetentionPolicy) :
    Script F Appended := do
  Script.pure (requireGenericMedallionScope L writer.scope)
  appendBronze L writer events kafkaTopic retention

/-- **A call of a bronze writer.** -/
inductive BronzeCall (F : Type) (L : Library) where
  | bronze (writer : SegregatedDeltaWriter L) (events : List (Row F)) (kafkaTopic : Option Text)
      (retention : Option Retention.RetentionPolicy)
  | scopeBronze (writer : SegregatedDeltaWriter L) (events : List (Row F))
      (kafkaTopic : Option Text) (retention : Option Retention.RetentionPolicy)
  | events (tableUri : Text) (events : List (Row F)) (tableDescription : Option Text)

namespace BronzeCall

variable {L}

/-- The batch of a call. -/
def rows : BronzeCall F L → List (Row F)
  | bronze _ rows _ _ => rows
  | scopeBronze _ rows _ _ => rows
  | events _ rows _ => rows

/-- The table a call writes. -/
def target : BronzeCall F L → Except PyError Text
  | bronze writer _ _ _ | scopeBronze writer _ _ _ => writer.tableUri (lit "bronze")
  | events tableUri _ _ => .ok tableUri

def script : BronzeCall F L → Script F Appended
  | bronze writer rows kafkaTopic retention => appendBronze L writer rows kafkaTopic retention
  | scopeBronze writer rows kafkaTopic retention =>
    appendScopeBronze L writer rows kafkaTopic retention
  | events tableUri rows tableDescription => appendEvents L tableUri rows tableDescription

end BronzeCall

/-! ## One row for each event -/

variable {L} {uri : Text} {w w₀ w' : World F} {c : BronzeCall F L}

theorem guardWrite_eq_ok {writer : SegregatedDeltaWriter L} {layer : Text} {events : List (Row F)}
    {kafkaTopic : Option Text} (h : guardWrite L writer layer events kafkaTopic = .ok uri) :
    writer.tableUri layer = .ok uri := by
  obtain ⟨-, h⟩ := guard_eq_ok.1 h
  obtain ⟨target, htarget, h⟩ := bind_eq_ok.1 h
  obtain ⟨_, -, h⟩ := bind_eq_ok.1 h
  obtain ⟨_, -, h⟩ := bind_eq_ok.1 h
  cases h
  exact htarget

/-- A guarded append ends as an append of its batch. -/
theorem ends_appendBronze {writer : SegregatedDeltaWriter L} {events : List (Row F)}
    {kafkaTopic : Option Text} {retention : Option Retention.RetentionPolicy}
    {x : Except PyError Appended} (htarget : writer.tableUri (lit "bronze") = .ok uri)
    (h : (appendBronze L writer events kafkaTopic retention).Ends World.Performs w x w') :
    AppendEnds L uri events "event_id" none w x w' := by
  obtain ⟨target, hguard, happend⟩ | ⟨e, -, rfl, rfl⟩ := Prog.ends_lift_bind h
  · rw [guardWrite_eq_ok hguard] at htarget
    cases htarget
    exact ends_appendRows happend
  · exact .raised

/-- **Every bronze writer ends as an append of its batch.** -/
theorem ends_script {x : Except PyError Appended} (htarget : c.target = .ok uri)
    (h : c.script.Ends World.Performs w x w') :
    AppendEnds L uri c.rows "event_id" none w x w' := by
  cases c with
  | bronze writer rows kafkaTopic retention => exact ends_appendBronze htarget h
  | scopeBronze writer rows kafkaTopic retention =>
    obtain ⟨-, -, happend⟩ | ⟨e, -, rfl, rfl⟩ := Prog.ends_lift_bind h
    · exact ends_appendBronze htarget happend
    · exact .raised
  | events tableUri rows tableDescription =>
    cases htarget
    exact ends_appendRows h

/-- **The rows of a batch carry an event id.** -/
def HasEventIds (rows : List (Row F)) : Prop := ∀ r ∈ rows, IsText (r.get "event_id")

/-- A table holds at most one row for each event. -/
def OneRowPerEvent (uri : Text) (w : World F) : Prop :=
  (keyTexts "event_id" (storedRows uri w)).Nodup

/-- **No event that a table lacks is in a batch twice.** -/
def BringsEachOnce (uri : Text) (w : World F) (rows : List (Row F)) : Prop :=
  (newKeys "event_id" uri w rows).Nodup

/-- **Calls on one table, one after another**, whether or not they return,
none of which brings an event twice. -/
inductive Sequence (L : Library) (uri : Text) (w₀ : World F) : World F → Prop
  | nil : Sequence L uri w₀ w₀
  | call {w w' : World F} {c : BronzeCall F L} {x : Except PyError Appended} :
      Sequence L uri w₀ w → c.target = .ok uri → HasEventIds c.rows →
      BringsEachOnce uri w c.rows → c.script.Ends World.Performs w x w' → Sequence L uri w₀ w'

/-- One row for each event, in every state that such calls reach. -/
theorem Sequence.oneRow (h₀ : w₀.tables uri = []) (h : Sequence L uri w₀ w) :
    HasColumn IsText "event_id" uri w ∧ OneRowPerEvent uri w := by
  induction h with
  | nil =>
    refine ⟨by simp [HasColumn, h₀], ?_⟩
    simp [OneRowPerEvent, storedRows, h₀, keyTexts]
  | @call w w' c x _ htarget hids honce hends ih =>
    have hend := ends_script htarget hends
    refine ⟨hend.hasColumn IsText.ne_null hids ih.1, ?_⟩
    obtain ⟨-, rfl⟩ | hkeys := hend.keyTexts hids ih.1
    · exact ih.2
    · rw [OneRowPerEvent, hkeys, nodup_append_newKeys]
      exact ⟨ih.2, honce⟩

/-- **After a call that returns, a bronze table holds one row for each event
and as many more rows as the call reports exactly when the batch brings no
event twice**, if no call before it did. -/
theorem one_row_per_event_iff (h₀ : w₀.tables uri = []) (h : Sequence L uri w₀ w)
    (htarget : c.target = .ok uri) (hids : HasEventIds c.rows) {a : Appended}
    (hends : c.script.Ends World.Performs w (.ok a) w') :
    (OneRowPerEvent uri w' ∧
        (storedRows uri w').length = (storedRows uri w).length + a.written) ↔
      BringsEachOnce uri w c.rows := by
  obtain ⟨hkeys, hone⟩ := h.oneRow h₀
  have hend := ends_script htarget hends
  rw [and_iff_left hend.written.2]
  obtain ⟨⟨e, he⟩, -⟩ | hadded := hend.keyTexts hids hkeys
  · cases he
  · rw [OneRowPerEvent, hadded, nodup_append_newKeys]
    exact and_iff_right hone

/-! ### A batch that repeats an event -/

/-- A store without tables. -/
def noTables : World Decimal where
  tables _ := []
  deadLetters := []
  commits := []
  files _ := none
  clock := 0

/-- A row of the `cvff` scope. -/
def commitment (eventId : String) : Row Decimal :=
  [("event_id", .text (lit eventId)), ("data_classification", .text (lit "fiduciary_segregated"))]

/-- A writer of the `cvff` scope. -/
def commitments : SegregatedDeltaWriter Library.ascii where
  scope := .cvff
  scopeRootUri := lit "/srv/cvff"
  root := lit "/srv/cvff"
  checked := toOption_eq_some.1 (by decide +kernel)

def commitmentsUri : Text := lit "/srv/cvff/cvff_bronze/events"

def appendCommitments (eventIds : List String) : BronzeCall Decimal Library.ascii :=
  .bronze commitments (eventIds.map commitment) none none

/-- What such a call leaves. -/
def commitmentsAfter (eventIds : List String) : Except PyError Appended × World Decimal :=
  (appendCommitments eventIds).script.run (Engine.plain Decimal).handle noTables

theorem target_commitments (eventIds : List String) :
    (appendCommitments eventIds).target = .ok commitmentsUri := by
  have htarget : commitments.tableUri (lit "bronze") = .ok commitmentsUri :=
    toOption_eq_some.1 (by decide +kernel)
  exact htarget

theorem hasEventIds_commitments (eventIds : List String) :
    HasEventIds (appendCommitments eventIds).rows := by
  intro r hr
  obtain ⟨eventId, -, rfl⟩ := List.mem_map.1 hr
  exact ⟨lit eventId, rfl⟩

/-- Two events, each once. -/
theorem one_row_per_event_two :
    (commitmentsAfter ["a", "b"]).1 = .ok ⟨0, 2, 0⟩ ∧
      OneRowPerEvent commitmentsUri (commitmentsAfter ["a", "b"]).2 := by
  have hret : (commitmentsAfter ["a", "b"]).1 = .ok ⟨0, 2, 0⟩ :=
    toOption_eq_some.1 (by decide +kernel)
  have hends := (Engine.plain Decimal).ends_of_run (Prod.ext hret rfl :
    commitmentsAfter ["a", "b"] = (.ok ⟨0, 2, 0⟩, (commitmentsAfter ["a", "b"]).2))
  refine ⟨hret, ((one_row_per_event_iff rfl (.nil : Sequence _ _ noTables _)
    (target_commitments ["a", "b"]) (hasEventIds_commitments ["a", "b"]) hends).2 ?_).1⟩
  unfold BringsEachOnce
  decide +kernel

/-- A batch that has an event twice is written as it is. -/
theorem one_row_per_event_not_always :
    ¬∀ (L : Library) (uri : Text) (w w' : World Decimal) (c : BronzeCall Decimal L) (a : Appended),
      w.tables uri = [] → c.target = .ok uri → HasEventIds c.rows →
        c.script.Ends World.Performs w (.ok a) w' → OneRowPerEvent uri w' := by
  intro h
  have hret : (commitmentsAfter ["a", "a"]).1 = .ok ⟨0, 2, 0⟩ :=
    toOption_eq_some.1 (by decide +kernel)
  have hends := (Engine.plain Decimal).ends_of_run (Prod.ext hret rfl :
    commitmentsAfter ["a", "a"] = (.ok ⟨0, 2, 0⟩, (commitmentsAfter ["a", "a"]).2))
  have hone := h Library.ascii commitmentsUri noTables _ _ _ rfl (target_commitments ["a", "a"])
    (hasEventIds_commitments ["a", "a"]) hends
  unfold OneRowPerEvent at hone
  exact absurd hone (by decide +kernel)

end Medallion

end Lakehouse

import Lakehouse.Kafka.DeadLetter
import Lakehouse.Storage.Segregation
import Lakehouse.Ingest.Fields
/-!
# A consumer run

One run collects a bounded batch of messages, quarantining the ones it
cannot decode, appends the decoded events to the target table and commits
the offsets. What the broker polls return is a list, which ends where the
idle timeout does.
-/

namespace Lakehouse

namespace Kafka

variable {F : Type} [PyFloat F] (L : Library)

/-- What one `consumer.poll` returns. -/
inductive Poll where
  /-- Nothing before the poll's timeout. -/
  | idle
  /-- `KafkaError._PARTITION_EOF`. -/
  | partitionEof
  /-- Any other broker error. -/
  | brokerError
  | message (m : Message)
  deriving DecidableEq

/-- What a run has collected so far. -/
structure Collected where
  events : List Event
  messages : List Message
  reasonCounts : Members ℕ
  deriving DecidableEq

/-- An event joins the batch. -/
def Collected.accept (acc : Collected) (e : Event) (m : Message) : Collected :=
  { acc with events := acc.events ++ [e], messages := acc.messages ++ [m] }

/-- A quarantined message is counted. -/
def Collected.reject (acc : Collected) (reason : Text) (m : Message) : Collected :=
  { acc with
    messages := acc.messages ++ [m]
    reasonCounts := Members.set acc.reasonCounts reason
      (((Members.get reason acc.reasonCounts).getD 0) + 1) }

/-- A decoded event whose id the batch does not have yet. -/
def checkRepeat (acc : Collected) (e : Event) : Except PyError Event :=
  if e.eventId ∈ acc.events.map Event.eventId then
    .error (.valueError (lit "Kafka batch repeats event_id " ++ L.reprText e.eventId))
  else .ok e

/-- The reason a message is quarantined for. -/
def rejectionReason (e : PyError) : Text :=
  if lit "repeats event_id" <:+: e.text then reasonDuplicateEventId else reasonForError e

/-- The quarantine of a message that raised a `ValueError`. -/
def quarantineMessage (dlq : DeadLetterQueue) (m : Message) (e : PyError) : Script F Unit :=
  match m.topic, m.partition, m.offset with
  | some topic, some partition, some offset =>
    quarantine L dlq m.value topic partition offset (rejectionReason e) e.text
  | _, _, _ => .raise (.valueError
      (lit "poison Kafka message did not contain topic, partition and offset"))

/-- The end of a batch, which may not be empty. -/
def finishBatch (acc : Collected) : Script F Collected :=
  if acc.messages = [] then
    .raise (.valueError (lit "no Kafka messages were received before the idle timeout"))
  else .ret acc

/-- **`_collect_messages`**, over what the polls return. The decoder reads
the clock. -/
def collectMessages (decode : ℤ → Option Bytes → Except PyError Event) (maximum : ℕ)
    (dlq : DeadLetterQueue) : List Poll → Collected → Script F Collected
  | [], acc => finishBatch acc
  | poll :: polls, acc =>
    if maximum ≤ acc.messages.length then finishBatch acc
    else match poll with
    | .idle | .partitionEof => collectMessages decode maximum dlq polls acc
    | .brokerError => .raise .kafkaException
    | .message m => do
      let us ← Script.now
      match decode us m.value >>= checkRepeat L acc with
      | .ok event => collectMessages decode maximum dlq polls (acc.accept event m)
      | .error e =>
        if e.isValueError then do
          quarantineMessage L dlq m e
          collectMessages decode maximum dlq polls (acc.reject (rejectionReason e) m)
        else .raise e

/-! ## Commit -/

/-- The last message of each partition, in the order the partitions were
first seen. -/
def latestByPartition : List Message → List ((Text × ℤ) × Message) →
    Except PyError (List ((Text × ℤ) × Message))
  | [], latest => .ok latest
  | m :: ms, latest =>
    match m.topic, m.partition with
    | some topic, some partition =>
      latestByPartition ms
        (if (topic, partition) ∈ latest.map Prod.fst then
          latest.map fun l => if l.1 = (topic, partition) then (l.1, m) else l
        else latest ++ [((topic, partition), m)])
    | _, _ => .error (.runtimeError (lit "Kafka message did not contain a topic and partition"))

/-- `topic:partition`. -/
def partitionName (topic : Text) (partition : ℤ) : Text := topic ++ 0x3A :: Text.ofInt partition

/-- The commits, partition by partition. -/
def commitLatest : List ((Text × ℤ) × Message) → Members ℤ → Script F (Members ℤ)
  | [], offsets => .ret offsets
  | ((topic, partition), m) :: rest, offsets => do
    let reply ← Script.commitMessage topic partition m.offset
    if reply = [] then
      .raise (.runtimeError (lit "Kafka did not return a committed offset for " ++
        partitionName topic partition))
    else match m.offset with
    | none => .raise (.runtimeError (lit "Kafka message did not contain an offset for " ++
        partitionName topic partition))
    | some offset =>
      if confirms reply topic partition (offset + 1) then
        commitLatest rest (Members.set offsets (partitionName topic partition) (offset + 1))
      else .raise (.runtimeError (lit "Kafka offset commit was not confirmed for " ++
        partitionName topic partition))

/-- **`_commit_messages`.** -/
def commitMessages (messages : List Message) : Script F (Members ℤ) := do
  let latest ← Script.pure (latestByPartition messages [])
  commitLatest (sortBy (fun l => toLex l.1) latest) []

/-! ## The run -/

/-- `enforce_event_scope`. -/
def enforceEventScope (scope : LakehouseScope) : List Event → Except PyError Unit
  | [] => .ok ()
  | e :: events => do
    let eventScope ← Segregation.scopeForClassification L e.dataClassification
    if eventScope ≠ scope then
      .error (.boundaryViolation (scope.value ++ lit " writer cannot accept event " ++
        L.reprText e.eventId ++ lit " classified " ++ L.reprText e.dataClassification ++
        lit "; it belongs to the " ++ eventScope.value ++ lit " boundary"))
    else enforceEventScope scope events

/-- `enforce_record_classification`. -/
def enforceRecordClassification (scope : LakehouseScope) (events : List Event) :
    Except PyError Unit :=
  if scope ≠ .isr then .ok ()
  else match events.find? fun e => e.recordClassification.isNone with
  | none => .ok ()
  | some e => .error (.valueError (lit "isr scope record " ++ L.reprText e.eventId ++
      lit " is missing its record_classification label; unlabelled classified records are " ++
      lit "rejected"))

/-- The arguments of a run, but for its transport and its files. -/
structure Arguments where
  topic : Text
  scope : LakehouseScope
  tableUri : Text
  dlqTopic : Text
  dlqTableUri : Text
  groupId : Text
  maxMessages : ℕ

/-- `TOPIC_PATTERN.fullmatch`. -/
def isTopic (t : Text) : Bool :=
  let alnum := fun c => Uri.isUpper c || Uri.isLower c || isDigit c
  match t with
  | [] => false
  | c :: rest => alnum c && rest.length ≤ 248 &&
      rest.all fun d => alnum d || d == 0x2E || d == 0x5F || d == 0x2D

/-- The checks before the consumer is built. -/
def checkArguments (a : Arguments) : Except PyError DeadLetterQueue := do
  Segregation.enforceTopicScope L a.topic a.scope
  Segregation.requireScopeTableUri L a.scope a.tableUri
  let dlqTopic ← Ingest.requireCanonicalText (F := F) L (.str a.dlqTopic) (lit "dlq_topic") 249
  if isTopic dlqTopic = false then
    .error (.valueError (lit "dlq_topic is not a valid Kafka topic name"))
  else if dlqTopic = a.topic then
    .error (.valueError (lit "dlq_topic must differ from the consumed topic"))
  else do
    Segregation.enforceTopicScope L dlqTopic a.scope
    Segregation.requireScopeTableUri L a.scope a.dlqTableUri
    return ⟨dlqTopic, a.dlqTableUri, a.groupId⟩

/-- What a run did before it commits. -/
structure Ingested where
  collected : Collected
  /-- `-1` where there was no event to append. -/
  tableVersion : ℤ
  recordsWritten : ℕ
  recordsAlreadyPresent : ℤ

/-- The append of a batch, where there is one. -/
def appendCollected (tableUri : Text) (collected : Collected) : Script F Ingested :=
  if collected.events = [] then .ret ⟨collected, -1, 0, 0⟩
  else do
    let appended ← Ingest.appendEvents L tableUri (collected.events.map Event.row) none
    return ⟨collected, appended.version, appended.written, appended.present⟩

/-- The run up to its commits. -/
def ingestBatch (decode : ℤ → Option Bytes → Except PyError Event) (a : Arguments)
    (polls : List Poll) : Script F Ingested := do
  let dlq ← Script.pure (checkArguments (F := F) L a)
  let collected ← collectMessages L decode a.maxMessages dlq polls ⟨[], [], []⟩
  Script.pure (enforceEventScope L a.scope collected.events)
  Script.pure (enforceRecordClassification L a.scope collected.events)
  appendCollected L a.tableUri collected

/-- **`_run`**, up to the report. -/
def run (decode : ℤ → Option Bytes → Except PyError Event) (a : Arguments) (polls : List Poll) :
    Script F (Ingested × Members ℤ) := do
  let ingested ← ingestBatch L decode a polls
  let committedOffsets ← commitMessages ingested.collected.messages
  return (ingested, committedOffsets)

end Kafka

end Lakehouse

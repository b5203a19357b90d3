import Lakehouse.Ingest.Event
import Lakehouse.Delta.Interleaving
import Lakehouse.PyJson
import Lakehouse.Common.Base64
/-!
# The dead-letter queue

A rejected message is wrapped in a record, produced to the dead-letter
topic and appended to the quarantine table, in this order; anything short
of both raises. A message quarantined by an earlier run is found by its id
and not appended again.
-/

namespace Lakehouse

/-- A message a poll returned. -/
structure Message where
  topic : Option Text
  partition : Option ℤ
  offset : Option ℤ
  value : Option Bytes
  deriving DecidableEq

namespace Kafka

variable {F : Type} [PyFloat F]

def maxLineBytes : ℕ := 2 * 1024 * 1024
def maxDlqDetailBytes : ℕ := 2048
def dlqSchemaVersion : Text := lit "blueeconomy.lakehouse.dlq-record.v1"
def reasonMalformedEnvelope : Text := lit "malformed-envelope"
def reasonDuplicateEventId : Text := lit "duplicate-event-id"

def dlqTableDescription : Text :=
  lit "Governed append-only quarantine table for dead-lettered Kafka messages " ++
    lit "(poison envelopes preserved verbatim with reason codes)"

/-- **`reason_for_error`.** -/
def reasonForError : PyError → Text
  | .signatureRejected reason _ => reason
  | _ => reasonMalformedEnvelope

/-- `text.encode("utf-8", errors="replace")[:limit].decode("utf-8", errors="replace")`:
a surrogate becomes a question mark, and a character the limit cuts the
replacement character. -/
def boundedDetail : ℕ → Text → Text
  | _, [] => []
  | limit, c :: t =>
    let d := if Scalar c then c else 0x3F
    let n := (Text.utf8Octets d).length
    if n ≤ limit then d :: boundedDetail (limit - n) t
    else if limit = 0 then [] else [0xFFFD]

/-- **A quarantine record.** -/
structure DlqRecord where
  dlqEventId : Text
  sourceTopic : Text
  sourcePartition : ℤ
  sourceOffset : ℤ
  reasonCode : Text
  errorDetail : Text
  messageSha256 : Text
  messageValueBase64 : Text
  consumerGroupSha256 : Text
  quarantinedAt : Text
  deriving DecidableEq

/-- The record as a dict. -/
def DlqRecord.json (r : DlqRecord) : Doc F :=
  .obj [(lit "schema_version", .str dlqSchemaVersion), (lit "dlq_event_id", .str r.dlqEventId),
    (lit "source_topic", .str r.sourceTopic), (lit "source_partition", .num (.int r.sourcePartition)),
    (lit "source_offset", .num (.int r.sourceOffset)), (lit "reason_code", .str r.reasonCode),
    (lit "error_detail", .str r.errorDetail), (lit "message_sha256", .str r.messageSha256),
    (lit "message_value_base64", .str r.messageValueBase64),
    (lit "consumer_group_sha256", .str r.consumerGroupSha256),
    (lit "quarantined_at", .str r.quarantinedAt)]

variable (L : Library)

/-- The id of a quarantined message: where it came from and why it was
rejected. -/
def dlqEventId (sourceTopic : Text) (sourcePartition sourceOffset : ℤ) (reason : Text) :
    Except PyError Text := do
  let material ← encodeUtf8 (sourceTopic ++ 0x2F :: Text.ofInt sourcePartition ++
    0x2F :: Text.ofInt sourceOffset ++ 0x2F :: reason)
  return L.sha256 material

/-- **Coordinates and what follows them** can be read off the text they are
joined to, where the topic has no slash. -/
theorem coordinates_inj {topic topic' rest rest' : Text} {partition partition' offset offset' : ℤ}
    (ht : 0x2F ∉ topic) (ht' : 0x2F ∉ topic')
    (h : topic ++ 0x2F :: Text.ofInt partition ++ 0x2F :: Text.ofInt offset ++ 0x2F :: rest =
      topic' ++ 0x2F :: Text.ofInt partition' ++ 0x2F :: Text.ofInt offset' ++ 0x2F :: rest') :
    topic = topic' ∧ partition = partition' ∧ offset = offset' ∧ rest = rest' := by
  have hslash : ∀ n : ℤ, 0x2F ∉ Text.ofInt n := by
    intro n hn
    obtain heq | hdigit := Text.mem_ofInt hn
    · exact absurd heq (by decide)
    · exact absurd hdigit (by decide)
  simp only [List.append_assoc, List.cons_append] at h
  obtain ⟨htopic, h⟩ := Text.partition_inj ht ht' h
  obtain ⟨hpartition, h⟩ := Text.partition_inj (hslash _) (hslash _) h
  obtain ⟨hoffset, hrest⟩ := Text.partition_inj (hslash _) (hslash _) h
  exact ⟨htopic, Text.ofInt_injective hpartition, Text.ofInt_injective hoffset, hrest⟩

/-- **`build_dlq_record`**, at an instant. -/
def buildDlqRecord (value : Option Bytes) (sourceTopic : Text) (sourcePartition sourceOffset : ℤ)
    (reason detail consumerGroup : Text) (quarantinedAt : ℤ) : Except PyError DlqRecord := do
  let raw := (value.getD []).take maxLineBytes
  let id ← dlqEventId L sourceTopic sourcePartition sourceOffset reason
  let group ← encodeUtf8 consumerGroup
  return {
    dlqEventId := id
    sourceTopic
    sourcePartition
    sourceOffset
    reasonCode := reason
    errorDetail := boundedDetail maxDlqDetailBytes detail
    messageSha256 := L.sha256 raw
    messageValueBase64 := Base64.encodeStandard raw
    consumerGroupSha256 := L.sha256 group
    quarantinedAt := L.isoformat quarantinedAt }

/-- `DeadLetterQueue`, but for its producer. -/
structure DeadLetterQueue where
  dlqTopic : Text
  quarantineTableUri : Text
  consumerGroup : Text

variable {L}

/-- The message a record is produced as. -/
def DlqRecord.letter (F : Type) [PyFloat F] (dlqTopic : Text) (r : DlqRecord) :
    Except PyError DeadLetter := do
  let text ← dumps { compact := true } (r.json : Doc F)
  let value ← encodeUtf8 text
  let key ← encodeUtf8 r.dlqEventId
  return ⟨dlqTopic, key, value⟩

variable (L)

/-- `datetime.fromisoformat` of a record's timestamp. -/
def parseQuarantinedAt (text : Text) : Except PyError ℤ :=
  match L.fromIsoformat text with
  | .aware us => .ok us
  | _ => .error (.valueError (lit "Invalid isoformat string"))

/-- The quarantine table's row of a record. -/
def DlqRecord.event (F : Type) [PyFloat F] (r : DlqRecord) (ingestedAt : ℤ) :
    Except PyError Event := do
  let quarantinedAt ← parseQuarantinedAt L r.quarantinedAt
  let payload ← dumps { sortKeys := true } (r.json : Doc F)
  return {
    eventId := r.dlqEventId
    eventType := lit "lakehouse.dlq.quarantine.v1"
    producer := lit "blueeconomy-data-platform"
    occurredAt := quarantinedAt
    recordedAt := quarantinedAt
    dataClassification := lit "internal"
    sourceSystem := lit "blueeconomy-data-platform-dlq"
    sourceRecordReference := r.messageSha256
    correlationId := none
    payloadJson := payload
    ingestedAt
    recordClassification := none }

/-- `_already_quarantined`. -/
def alreadyQuarantined (quarantineTableUri dlqEventId : Text) : Script F Bool :=
  (Script.openTable quarantineTableUri >>= fun table => .ret (some table)).orElse
      (fun e => if e = .tableNotFound then .ret none else .raise e) >>= fun table =>
    match table with
    | none => .ret false
    | some table =>
      Script.readRows table ["event_id"] (some (.equals "event_id" dlqEventId)) >>= fun existing =>
        .ret (existing ≠ [])

/-- **`_append_quarantine_row`.** -/
def appendQuarantineRow (dlq : DeadLetterQueue) (record : DlqRecord) : Script F Unit := do
  let already ← alreadyQuarantined dlq.quarantineTableUri record.dlqEventId
  if already then return ()
  else do
    let ingestedAt ← Script.now
    let event ← Script.pure (record.event L F ingestedAt)
    (Ingest.appendEvents L dlq.quarantineTableUri [event.row] (some dlqTableDescription) >>=
      fun _ => .ret ()).orElse fun e => .raise (.deadLetterError
        (lit "DLQ quarantine table append failed for " ++ L.reprText dlq.quarantineTableUri ++
          lit ": " ++ e.text ++ lit "; halting without commit"))

/-- The list of delivery errors in a message. -/
def reprTexts (texts : List Text) : Text :=
  0x5B :: Text.join (lit ", ") (texts.map L.reprText) ++ [0x5D]

/-- **`DeadLetterQueue.quarantine`.** -/
def quarantine (dlq : DeadLetterQueue) (value : Option Bytes) (sourceTopic : Text)
    (sourcePartition sourceOffset : ℤ) (reason detail : Text) : Script F Unit := do
  let quarantinedAt ← Script.now
  let record ← Script.pure (buildDlqRecord L value sourceTopic sourcePartition sourceOffset reason
    detail dlq.consumerGroup quarantinedAt)
  let letter ← Script.pure (record.letter F dlq.dlqTopic)
  let flushed ← Script.deliver letter
  if flushed ≠ (0, []) then
    .raise (.deadLetterError (lit "DLQ produce to " ++ L.reprText dlq.dlqTopic ++
      lit " was not confirmed (unflushed=" ++ Text.ofNat flushed.1 ++ lit ", errors=" ++
      reprTexts L flushed.2 ++ lit "); halting without commit"))
  else appendQuarantineRow L dlq record

end Kafka

end Lakehouse

import Lakehouse.Kafka.Run
import Lakehouse.Ingest.Payload
/-!
# The ledger hash of a commitment

`build_silver_record` files a bronze row of the `cvff` scope under the
ledger commit hash of its payload. The hash is read at the top of the
payload and, where there is none, in the provenance block that ingestion
attaches. The envelope schema and ingestion admit any short text there;
the silver layer requires 64 lowercase hexadecimal digits.
-/

namespace Lakehouse

namespace Medallion

open Ingest

variable {F : Type} [PyFloat F] (L : Library)

/-- **`KafkaRecordMetadata`**: `__post_init__` refuses every other. -/
structure KafkaRecordMetadata where
  topic : Text
  partition : ℕ
  offset : ℕ
  checked : lit "cvff." <+: topic

/-- `LEDGER_COMMIT_HASH_PATTERN.fullmatch(text)`. -/
def isLedgerCommitHash (t : Text) : Bool :=
  t.length == 64 && t.all fun c => isDigit c || (0x61 ≤ c && c ≤ 0x66)

/-- The hash a payload carries, wherever it does. -/
def payloadLedgerHash (payload : Members (Doc F)) : Doc F :=
  match fieldOrNone payload (lit "ledgerCommitHash") with
  | .null =>
    match fieldOrNone payload (lit "provenance") with
    | .obj provenance => fieldOrNone provenance (lit "ledgerCommitHash")
    | _ => .null
  | ledgerHash => ledgerHash

/-- The hash, matched against the pattern. -/
def checkLedgerHash (ledgerHash : Doc F) : Except PyError Text :=
  let refused := PyError.valueError
    (lit "cvff payload must carry a ledgerCommitHash of 64 lowercase hexadecimal characters")
  match ledgerHash with
  | .str t => if isLedgerCommitHash t then .ok t else .error refused
  | _ => .error refused

/-- **`extract_ledger_commit_hash`.** -/
def extractLedgerCommitHash (event : Row F) : Except PyError Text :=
  match event.get "payload_json" with
  | .text payloadJson => do
    match ← Json.loads (defaultHooks (F := F)) payloadJson with
    | .obj payload => checkLedgerHash (payloadLedgerHash payload)
    | _ => .error (.valueError (lit "cvff payload must be a JSON object"))
  | _ => .error (.valueError (lit "bronze event is missing payload_json"))

/-- The text a silver key is the digest of. -/
def dedupMaterial (metadata : KafkaRecordMetadata) (ledgerHash : Text) : Except PyError Text := do
  let partition ← strInt metadata.partition
  let offset ← strInt metadata.offset
  return metadata.topic ++ 0x2F :: partition ++ 0x2F :: offset ++ 0x2F :: ledgerHash

/-- **`silver_dedup_key`.** -/
def silverDedupKey (metadata : KafkaRecordMetadata) (ledgerHash : Text) : Except PyError Text := do
  return L.sha256 (← encodeUtf8 (← dedupMaterial metadata ledgerHash))

/-- `SILVER_IDENTITY_COLUMNS[:10]`. -/
def bronzeColumns : List String :=
  ["event_id", "event_type", "producer", "occurred_at", "recorded_at", "data_classification",
    "source_system", "source_record_reference", "correlation_id", "payload_json"]

/-- The row of a silver record. -/
def silverRow (event : Row F) (metadata : KafkaRecordMetadata) (ledgerHash dedupKey : Text)
    (now : ℤ) : Row F :=
  event.project bronzeColumns ++
    [("kafka_topic", .text metadata.topic), ("kafka_partition", .int metadata.partition),
      ("kafka_offset", .int metadata.offset), ("ledger_commit_hash", .text ledgerHash),
      ("dedup_key", .text dedupKey), ("promoted_at", .instant now)]

/-- **`build_silver_record`**, at the instant `now`. -/
def buildSilverRecord (event : Row F) (metadata : KafkaRecordMetadata) (now : ℤ) :
    Except PyError (Row F) := do
  let ledgerHash ← extractLedgerCommitHash event
  match event.get "event_id" with
  | .null => .error (.valueError (lit "bronze event is missing event_id"))
  | _ => do
    let dedupKey ← silverDedupKey L metadata ledgerHash
    return silverRow event metadata ledgerHash dedupKey now

/-! ## The silver key -/

variable {L}

/-- A ledger hash is ASCII. -/
theorem isScalar_of_isLedgerCommitHash {t : Text} (h : isLedgerCommitHash t = true) :
    t.IsScalar := by
  intro c hc
  have hdigit := List.all_eq_true.1 (Bool.and_eq_true_iff.1 h).2 c hc
  unfold isDigit at hdigit
  simp only [Bool.or_eq_true, Bool.and_eq_true, decide_eq_true_eq] at hdigit
  exact Or.inl (by omega)

/-- Coordinates that can be written into a key: Kafka's can. -/
structure KafkaRecordMetadata.Writable (metadata : KafkaRecordMetadata) : Prop where
  topic : metadata.topic.IsScalar
  partition : (Text.ofNat metadata.partition).length ≤ maxStrDigits
  offset : (Text.ofNat metadata.offset).length ≤ maxStrDigits

/-- A natural number of few digits is written as such. -/
theorem strInt_natCast {n : ℕ} {t : Text} :
    strInt n = .ok t ↔ (Text.ofNat n).length ≤ maxStrDigits ∧ Text.ofNat n = t := by
  have htext : Text.ofInt n = Text.ofNat n := rfl
  rw [strInt, guard_eq_ok, not_lt, Int.natAbs_natCast, htext, Except.ok.injEq]

/-- **There is a silver key where its coordinates can be written.** -/
theorem silverDedupKey_isOk {metadata : KafkaRecordMetadata} {ledgerHash : Text}
    (h : ledgerHash.IsScalar) :
    (∃ key, silverDedupKey L metadata ledgerHash = .ok key) ↔ metadata.Writable := by
  have hslash : Scalar 0x2F := by decide
  constructor
  · rintro ⟨key, hkey⟩
    obtain ⟨material, hmaterial, hkey⟩ := bind_eq_ok.1 hkey
    obtain ⟨bytes, hbytes, -⟩ := bind_eq_ok.1 hkey
    obtain ⟨partition, hpartition, hmaterial⟩ := bind_eq_ok.1 hmaterial
    obtain ⟨offset, hoffset, hmaterial⟩ := bind_eq_ok.1 hmaterial
    cases hmaterial
    have hscalar := (Text.utf8_eq_some.1 (encodeUtf8_eq_ok.1 hbytes)).1
    simp only [Text.isScalar_append, Text.isScalar_cons] at hscalar
    exact ⟨hscalar.1.1.1, (strInt_natCast.1 hpartition).1, (strInt_natCast.1 hoffset).1⟩
  · intro hw
    have hscalar : (metadata.topic ++ 0x2F :: Text.ofNat metadata.partition ++
        0x2F :: Text.ofNat metadata.offset ++ 0x2F :: ledgerHash).IsScalar := by
      simp only [Text.isScalar_append, Text.isScalar_cons]
      exact ⟨⟨⟨hw.topic, hslash, Text.isScalar_ofNat _⟩, hslash, Text.isScalar_ofNat _⟩, hslash, h⟩
    have hbytes := encodeUtf8_eq_ok.2 (Text.utf8_eq_some.2 ⟨hscalar, rfl⟩)
    refine ⟨_, bind_eq_ok.2 ⟨_, ?_, bind_eq_ok.2 ⟨_, hbytes, rfl⟩⟩⟩
    exact bind_eq_ok.2 ⟨_, strInt_natCast.2 ⟨hw.partition, rfl⟩,
      bind_eq_ok.2 ⟨_, strInt_natCast.2 ⟨hw.offset, rfl⟩, rfl⟩⟩

/-! ## The hash of a decoded row -/

/-- `provenance.ledgerCommitHash` of an envelope. -/
def provenanceHash (d : Members (Doc F)) : Doc F :=
  match fieldOrNone d (lit "provenance") with
  | .obj provenance => fieldOrNone provenance (lit "ledgerCommitHash")
  | _ => .null

/-- The hash the resource of an envelope carries itself. -/
def resourceHash (d : Members (Doc F)) : Doc F :=
  match primaryResource (fieldOrNone d (lit "fhir")) with
  | .ok resource => fieldOrNone resource (lit "ledgerCommitHash")
  | .error _ => .null

/-- The hash a payload carries is still there when it is read again. -/
theorem payloadLedgerHash_reread {resource provenance : Members (Doc F)} {reference : Text}
    (hresource : resource.Distinct) (hprovenance : provenance.Distinct)
    (hreference : fieldOrNone provenance (lit "ledgerCommitHash") = .str reference)
    (hown : fieldOrNone resource (lit "ledgerCommitHash") = .null ∨
      fieldOrNone resource (lit "ledgerCommitHash") = .str reference) :
    payloadLedgerHash (rereadMembers (resource.set (lit "provenance") (.obj provenance))) =
      .str reference := by
  have hne : lit "ledgerCommitHash" ≠ lit "provenance" := by decide
  have hset := hresource.set (lit "provenance") (.obj provenance)
  have htop : fieldOrNone (rereadMembers (resource.set (lit "provenance") (.obj provenance)))
      (lit "ledgerCommitHash") = reread (fieldOrNone resource (lit "ledgerCommitHash")) := by
    unfold fieldOrNone
    rw [get_rereadMembers hset, Members.get_set, if_neg hne]
    cases resource.get (lit "ledgerCommitHash") <;> simp
  have hblock : fieldOrNone (rereadMembers (resource.set (lit "provenance") (.obj provenance)))
      (lit "provenance") = .obj (rereadMembers provenance) := by
    unfold fieldOrNone
    rw [get_rereadMembers hset, Members.get_set, if_pos rfl, Option.map_some, reread_obj]
    rfl
  have hinner : fieldOrNone (rereadMembers provenance) (lit "ledgerCommitHash") =
      .str reference := by
    unfold fieldOrNone at hreference ⊢
    rw [get_rereadMembers hprovenance]
    cases hget : provenance.get (lit "ledgerCommitHash") with
    | none =>
      rw [hget] at hreference
      cases hreference
    | some v =>
      rw [hget, Option.getD_some] at hreference
      rw [hreference, Option.map_some, reread_str, Option.getD_some]
  unfold payloadLedgerHash
  rw [htop, hblock]
  obtain hown | hown := hown
  · rw [hown, reread_null]
    exact hinner
  · rw [hown, reread_str]

/-- What the silver layer raises of any other hash. -/
def ledgerHashError : PyError := .valueError
  (lit "cvff payload must carry a ledgerCommitHash of 64 lowercase hexadecimal characters")

omit [PyFloat F] in
/-- A field that exists is found. -/
theorem fieldOrNone_of_field {ms : Members (Doc F)} {k : Text} {v : Doc F}
    (h : field ms k = .ok v) : fieldOrNone ms k = v := by
  unfold field at h
  cases hget : ms.get k with
  | none => rw [hget] at h; cases h
  | some w => rw [hget] at h; cases h; rw [fieldOrNone, hget]; rfl

/-- **What a silver record takes from a decoded row**: the hash the
extractor finds is the envelope's, unless the resource has another. -/
theorem extract_decoded [LawfulFloat F] {E : Ed25519} {directory : Members E.PublicKey}
    {schemaErrors : Members (Doc F) → List Text} {now : ℤ} {value : Option Bytes} {e : Event}
    (h : decodeEvent L E directory schemaErrors now value = .ok e) :
    ∃ d, verifiedDocument E directory schemaErrors value = .ok d ∧
      provenanceHash d = .str e.sourceRecordReference ∧
      (resourceHash d = .null ∨ resourceHash d = .str e.sourceRecordReference →
        extractLedgerCommitHash (e.row : Row F) =
          checkLedgerHash (.str e.sourceRecordReference : Doc F)) := by
  obtain ⟨d, event, resource, provenance, hd, hp, hparsed, hn⟩ := decodeEvent_eq_ok h
  obtain ⟨block, hblock, hprovenance⟩ := hp.block
  obtain ⟨fhir, hfhir, hresource⟩ := hp.fhir
  obtain ⟨hash, hhash, hreference⟩ := hp.ledgerCommitHash
  obtain ⟨rfl, -, -⟩ := requireCanonicalText_eq_ok L hreference
  obtain rfl := provenanceBlock_eq_ok hprovenance
  have hprovenanceHash : provenanceHash d = .str e.sourceRecordReference := by
    rw [provenanceHash, fieldOrNone_of_field hblock, hn.sourceRecordReference]
    exact fieldOrNone_of_field hhash
  have hresourceHash : resourceHash d = fieldOrNone resource (lit "ledgerCommitHash") := by
    rw [resourceHash, fieldOrNone_of_field hfhir, hresource]
  refine ⟨d, hd, hprovenanceHash, fun hown => ?_⟩
  rw [hresourceHash] at hown
  have hparsed' := parsed_verifiedDocument hd
  have hdistinct := valid_primaryResource (valid_field hparsed' hfhir) hresource
  have hblockDistinct := valid_field hparsed' hblock
  rw [extractLedgerCommitHash, e.get_payloadJson]
  simp only
  rw [loads_payloadText hparsed hn.payload, ok_bind, hp.payload]
  simp only
  rw [payloadLedgerHash_reread hdistinct.1 hblockDistinct.1 ?_ hown]
  rw [fieldOrNone_of_field hhash, hn.sourceRecordReference]

/-- **A decoded row is filed under the hash of its envelope exactly when
this is 64 lowercase hexadecimal digits** and the coordinates can be
written, where the resource brings no hash of its own. A row with another
hash is refused. -/
theorem buildSilverRecord_decoded [LawfulFloat F] {E : Ed25519} {directory : Members E.PublicKey}
    {schemaErrors : Members (Doc F) → List Text} {now : ℤ} {value : Option Bytes} {e : Event}
    (h : decodeEvent L E directory schemaErrors now value = .ok e) :
    ∃ d, verifiedDocument E directory schemaErrors value = .ok d ∧
      provenanceHash d = .str e.sourceRecordReference ∧
      (resourceHash d = .null ∨ resourceHash d = .str e.sourceRecordReference →
        ∀ (metadata : KafkaRecordMetadata) (promoted : ℤ),
          (isLedgerCommitHash e.sourceRecordReference = true →
            ((∃ record, buildSilverRecord L (e.row : Row F) metadata promoted = .ok record) ↔
              metadata.Writable) ∧
            ∀ record, buildSilverRecord L (e.row : Row F) metadata promoted = .ok record →
              ∃ key, silverDedupKey L metadata e.sourceRecordReference = .ok key ∧
                record = silverRow e.row metadata e.sourceRecordReference key promoted) ∧
          (isLedgerCommitHash e.sourceRecordReference = false →
            buildSilverRecord L (e.row : Row F) metadata promoted = .error ledgerHashError)) := by
  obtain ⟨d, hd, hhash, hextract⟩ := extract_decoded h
  refine ⟨d, hd, hhash, fun hown metadata promoted => ⟨fun hhex => ?_, fun hhex => ?_⟩⟩
  · have hcheck : checkLedgerHash (.str e.sourceRecordReference : Doc F) =
        .ok e.sourceRecordReference := if_pos hhex
    -- with a hash of 64 digits only the key may fail
    have hbuild : buildSilverRecord L (e.row : Row F) metadata promoted = (do
        let key ← silverDedupKey L metadata e.sourceRecordReference
        return silverRow e.row metadata e.sourceRecordReference key promoted) := by
      rw [buildSilverRecord, hextract hown, hcheck, ok_bind, e.get_eventId]
    rw [hbuild, ← silverDedupKey_isOk (L := L) (isScalar_of_isLedgerCommitHash hhex)]
    refine ⟨⟨?_, ?_⟩, ?_⟩
    · rintro ⟨record, hrecord⟩
      obtain ⟨key, hkey, -⟩ := bind_eq_ok.1 hrecord
      exact ⟨key, hkey⟩
    · rintro ⟨key, hkey⟩
      exact ⟨_, bind_eq_ok.2 ⟨key, hkey, rfl⟩⟩
    · intro record hrecord
      obtain ⟨key, hkey, hrecord⟩ := bind_eq_ok.1 hrecord
      cases hrecord
      exact ⟨key, hkey, rfl⟩
  · have hcheck : checkLedgerHash (.str e.sourceRecordReference : Doc F) = .error ledgerHashError :=
      if_neg (by simp [hhex])
    rw [buildSilverRecord, hextract hown, hcheck, error_bind]

/-! ### Two commitments -/

/-- An envelope of the ledger. -/
def ledgerEnvelope (hash : String) : Members (Doc Decimal) :=
  [(lit "envelopeVersion", .str (lit "1.0")),
    (lit "eventId", .str (lit "5f6f2d5e-0b1c-4c68-9a3e-2f1f6a1f0c01")),
    (lit "eventType", .str (lit "cvff.ledger.commitment.v1")),
    (lit "occurredAt", .str (lit "2026-03-01T08:00:00Z")),
    (lit "producer", .str (lit "cvff-ledger")),
    (lit "correlationId", .str (lit "corr-1")),
    (lit "fhir", .obj [(lit "resourceType", .str (lit "Bundle")), (lit "type", .str (lit "message")),
      (lit "entry", .arr [.obj [(lit "resource", .obj [(lit "amount", .str (lit "1000.00"))])]])]),
    (lit "provenance", .obj [(lit "principalId", .str (lit "ledger-1")),
      (lit "principalRole", .str (lit "operator")), (lit "ledgerCommitHash", .str (lit hash))]),
    (lit "classification", .str (lit "FIDUCIARY_SEGREGATED"))]

/-- A hash of the ledger. -/
def ledgerHash : String := "aaaaaaaaaaaaaaaaaaaaaaaaaaaaaaaaaaaaaaaaaaaaaaaaaaaaaaaaaaaaaaaa"

/-- The first record of a partition. -/
def firstRecord : KafkaRecordMetadata where
  topic := lit "cvff.ledger.commitments"
  partition := 0
  offset := 0
  checked := by decide

/-- What decoding makes of an envelope of the ledger. -/
def decodedLedger (hash : String) : Except PyError Event :=
  decodeSigned 0 (signedBytes (ledgerEnvelope hash))

/-- Whether the resource of the envelope brings a hash. -/
def ownHash (hash : String) : Except PyError Bool := do
  let d ← verifiedDocument (F := Decimal) Envelope.echo [(lit "port-gateway-1", ())] (fun _ => [])
    (some (signedBytes (ledgerEnvelope hash)))
  return !(resourceHash d).equal .null

/-- The sample envelope carries the hash and the resource has none of its own.
-/
theorem decodedLedger_hash : (do
      let e ← decodedLedger ledgerHash
      let own ← ownHash ledgerHash
      return decide (e.sourceRecordReference = lit ledgerHash) && !own) = .ok true := by
  decide +kernel

/-- The sample record can be written. -/
theorem firstRecord_writable : firstRecord.Writable := ⟨by decide, by decide, by decide⟩

/-- A commitment under a digest is filed under it. -/
theorem buildSilverRecord_ledger : ∃ e record, decodedLedger ledgerHash = .ok e ∧
    buildSilverRecord Library.ascii (e.row : Row Decimal) firstRecord 0 = .ok record ∧
      record.get "ledger_commit_hash" = .text (lit ledgerHash) := by
  obtain ⟨e, he, h⟩ := bind_eq_ok.1 decodedLedger_hash
  obtain ⟨own, hown, h⟩ := bind_eq_ok.1 h
  obtain ⟨d, hd, hequal⟩ := bind_eq_ok.1 hown
  obtain ⟨hreference, hnone⟩ := Bool.and_eq_true_iff.1 (Except.ok.inj h)
  have hreference := of_decide_eq_true hreference
  have hnull : resourceHash d = .null := by
    cases hequal
    exact (Json.equal_iff _ _).1 (by simpa using hnone)
  obtain ⟨d', hd', -, hfiled⟩ := buildSilverRecord_decoded he
  obtain rfl := Except.ok.inj (hd.symm.trans hd')
  obtain ⟨hbuild, -⟩ := hfiled (Or.inl hnull) firstRecord 0
  obtain ⟨hok, hrecord⟩ := hbuild (by rw [hreference]; decide)
  obtain ⟨record, hr⟩ := hok.2 firstRecord_writable
  obtain ⟨key, -, hrow⟩ := hrecord record hr
  refine ⟨e, record, he, hr, ?_⟩
  rw [hrow, hreference]
  rfl

/-- A shorter hash passes the ingestion and not the extraction. -/
theorem decodedLedger_short : (do
      let e ← decodedLedger "c0ffee"
      return (Kafka.enforceEventScope Library.ascii .cvff [e]).toOption.isSome &&
        (extractLedgerCommitHash (e.row : Row Decimal)).toOption.isNone) = .ok true := by
  decide +kernel

/-- A shorter hash is ingested and refused. -/
theorem buildSilverRecord_not_always :
    ¬∀ (L : Library) (E : Ed25519) (directory : Members E.PublicKey)
      (schemaErrors : Members (Doc Decimal) → List Text) (now : ℤ) (value : Option Bytes)
      (e : Event), decodeEvent L E directory schemaErrors now value = .ok e →
        Kafka.enforceEventScope L .cvff [e] = .ok () →
          ∀ (metadata : KafkaRecordMetadata) (promoted : ℤ), ∃ record,
            buildSilverRecord L (e.row : Row Decimal) metadata promoted = .ok record ∧
              record.get "ledger_commit_hash" = .text e.sourceRecordReference := by
  intro h
  obtain ⟨e, he, hchecks⟩ := bind_eq_ok.1 decodedLedger_short
  obtain ⟨hscope, hrefused⟩ := Bool.and_eq_true_iff.1 (Except.ok.inj hchecks)
  obtain ⟨⟨⟩, hscope⟩ := Option.isSome_iff_exists.1 hscope
  obtain ⟨record, hrecord, -⟩ :=
    h _ _ _ _ _ _ e he (toOption_eq_some.1 hscope) firstRecord 0
  obtain ⟨hash, hhash, -⟩ := bind_eq_ok.1 hrecord
  rw [hhash] at hrefused
  cases hrefused

end Medallion

end Lakehouse

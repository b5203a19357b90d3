import Lakehouse.Medallion.Bronze
import Lakehouse.Medallion.Silver
/-!
# Deduplication keys

The three keys of a Kafka record are digests of its coordinates and one
text more: the ledger hash, the event id or the reason of its rejection.
A legal topic has no slash and neither has a number, so the last text may
have any, and each key says which record it is of (`dedupKeys_identify`).
-/

namespace Lakehouse

/-- `[A-Za-z0-9._-]`. -/
def isTopicChar (c : ℕ) : Bool :=
  Uri.isUpper c || Uri.isLower c || isDigit c || c == 0x2E || c == 0x5F || c == 0x2D

/-- **The characters of a legal Kafka topic.** -/
def LegalTopic (topic : Text) : Prop := ∀ c ∈ topic, isTopicChar c = true

instance : DecidablePred LegalTopic := fun topic => by unfold LegalTopic; infer_instance

theorem LegalTopic.plain {topic : Text} (h : LegalTopic topic) : 0x2F ∉ topic := fun hslash => by
  have hchar := h 0x2F hslash
  cases hchar

variable {L : Library}

/-- Texts with one digest are one text. -/
theorem eq_of_sha256 (hsha : Function.Injective L.sha256) {s t : Text} {b b' : Bytes}
    (hs : encodeUtf8 s = .ok b) (ht : encodeUtf8 t = .ok b') (h : L.sha256 b = L.sha256 b') :
    s = t := by
  cases hsha h
  exact Text.utf8_injective (encodeUtf8_eq_ok.1 hs) (encodeUtf8_eq_ok.1 ht)

/-- The coordinates of a record and a text, with slashes between them. -/
def recordMaterial (topic : Text) (partition offset : ℕ) (last : Text) : Except PyError Text := do
  let partition ← strInt partition
  let offset ← strInt offset
  return topic ++ 0x2F :: partition ++ 0x2F :: offset ++ 0x2F :: last

namespace ScopeMedallion

open Medallion Segregation

variable (L)

/-- **`ScopeKafkaRecordMetadata`**: `__init__` refuses every other. -/
structure ScopeKafkaRecordMetadata where
  topic : Text
  partition : ℕ
  offset : ℕ
  checked : ∃ scope, requireGenericMedallionScope L scope = .ok () ∧
    enforceTopicScope L topic scope = .ok ()

/-- **`silver_dedup_key`** of a scope. -/
def silverDedupKey (metadata : ScopeKafkaRecordMetadata L) (eventId : Text) : Except PyError Text := do
  return L.sha256 (← encodeUtf8
    (← recordMaterial metadata.topic metadata.partition metadata.offset eventId))

end ScopeMedallion

/-! ## What a key says -/

theorem strInt_eq {n : ℤ} {t : Text} (h : strInt n = .ok t) : t = Text.ofInt n := by
  obtain ⟨-, htext⟩ := guard_eq_ok.1 h
  exact (Except.ok.inj htext).symm

theorem recordMaterial_eq {topic last t : Text} {partition offset : ℕ}
    (h : recordMaterial topic partition offset last = .ok t) :
    t = topic ++ 0x2F :: Text.ofInt partition ++ 0x2F :: Text.ofInt offset ++ 0x2F :: last := by
  obtain ⟨p, hpartition, h⟩ := bind_eq_ok.1 h
  obtain ⟨o, hoffset, h⟩ := bind_eq_ok.1 h
  cases h
  rw [strInt_eq hpartition, strInt_eq hoffset]

/-- **A digest of coordinates and a text** says which they are. -/
theorem dedupKey_inj (hsha : Function.Injective L.sha256) {topic topic' last last' key : Text}
    {partition partition' offset offset' : ℕ} (ht : LegalTopic topic) (ht' : LegalTopic topic')
    (h : (do return L.sha256 (← encodeUtf8 (← recordMaterial topic partition offset last)) :
      Except PyError Text) = .ok key)
    (h' : (do return L.sha256 (← encodeUtf8 (← recordMaterial topic' partition' offset' last')) :
      Except PyError Text) = .ok key) :
    topic = topic' ∧ partition = partition' ∧ offset = offset' ∧ last = last' := by
  obtain ⟨material, hmaterial, h⟩ := bind_eq_ok.1 h
  obtain ⟨material', hmaterial', h'⟩ := bind_eq_ok.1 h'
  obtain ⟨bytes, hbytes, hkey⟩ := bind_eq_ok.1 h
  obtain ⟨bytes', hbytes', hkey'⟩ := bind_eq_ok.1 h'
  have hsame := eq_of_sha256 hsha hbytes hbytes' (Except.ok.inj (hkey.trans hkey'.symm))
  rw [recordMaterial_eq hmaterial, recordMaterial_eq hmaterial'] at hsame
  obtain ⟨htopic, hpartition, hoffset, hlast⟩ := Kafka.coordinates_inj ht.plain ht'.plain hsame
  exact ⟨htopic, Int.natCast_inj.1 hpartition, Int.natCast_inj.1 hoffset, hlast⟩

theorem Kafka.dlqEventId_inj (hsha : Function.Injective L.sha256) {topic topic' : Text}
    {partition partition' offset offset' : ℤ} {reason reason' key : Text}
    (ht : LegalTopic topic) (ht' : LegalTopic topic')
    (h : Kafka.dlqEventId L topic partition offset reason = .ok key)
    (h' : Kafka.dlqEventId L topic' partition' offset' reason' = .ok key) :
    topic = topic' ∧ partition = partition' ∧ offset = offset' ∧ reason = reason' := by
  obtain ⟨bytes, hbytes, hkey⟩ := bind_eq_ok.1 h
  obtain ⟨bytes', hbytes', hkey'⟩ := bind_eq_ok.1 h'
  have hsame := eq_of_sha256 hsha hbytes hbytes' (Except.ok.inj (hkey.trans hkey'.symm))
  exact Kafka.coordinates_inj ht.plain ht'.plain hsame

/-- A record carries the id of its message. -/
theorem Kafka.dlqEventId_of_build {value : Option Bytes} {topic reason detail group : Text}
    {partition offset : ℤ} {us : ℤ} {r : Kafka.DlqRecord}
    (h : Kafka.buildDlqRecord L value topic partition offset reason detail group us = .ok r) :
    Kafka.dlqEventId L topic partition offset reason = .ok r.dlqEventId := by
  obtain ⟨key, hkey, h⟩ := bind_eq_ok.1 h
  obtain ⟨digest, -, h⟩ := bind_eq_ok.1 h
  cases h
  exact hkey

/-- **A key says which record it is of**: the silver key of a commitment, the
silver key of a scope, and the id of a quarantined message. -/
theorem dedupKeys_identify (hsha : Function.Injective L.sha256) :
    (∀ (m m' : Medallion.KafkaRecordMetadata) (ledgerHash ledgerHash' key : Text),
        LegalTopic m.topic → LegalTopic m'.topic →
        Medallion.silverDedupKey L m ledgerHash = .ok key →
        Medallion.silverDedupKey L m' ledgerHash' = .ok key →
        m.topic = m'.topic ∧ m.partition = m'.partition ∧ m.offset = m'.offset ∧
          ledgerHash = ledgerHash') ∧
      (∀ (m m' : ScopeMedallion.ScopeKafkaRecordMetadata L) (eventId eventId' key : Text),
        LegalTopic m.topic → LegalTopic m'.topic →
        ScopeMedallion.silverDedupKey L m eventId = .ok key →
        ScopeMedallion.silverDedupKey L m' eventId' = .ok key →
        m.topic = m'.topic ∧ m.partition = m'.partition ∧ m.offset = m'.offset ∧
          eventId = eventId') ∧
      ∀ (value value' : Option Bytes) (topic topic' : Text) (partition partition' offset offset' : ℤ)
        (reason reason' detail detail' group group' : Text) (us us' : ℤ) (r r' : Kafka.DlqRecord),
        LegalTopic topic → LegalTopic topic' →
        Kafka.buildDlqRecord L value topic partition offset reason detail group us = .ok r →
        Kafka.buildDlqRecord L value' topic' partition' offset' reason' detail' group' us' = .ok r' →
        r.dlqEventId = r'.dlqEventId →
        topic = topic' ∧ partition = partition' ∧ offset = offset' ∧ reason = reason' := by
  refine ⟨fun _ _ _ _ _ ht ht' h h' => dedupKey_inj hsha ht ht' h h',
    fun _ _ _ _ _ ht ht' h h' => dedupKey_inj hsha ht ht' h h', ?_⟩
  intro _ _ _ _ _ _ _ _ _ _ _ _ _ _ _ _ r r' ht ht' h h' hid
  have hkey' := Kafka.dlqEventId_of_build h'
  rw [← hid] at hkey'
  exact Kafka.dlqEventId_inj hsha ht ht' (Kafka.dlqEventId_of_build h) hkey'

/-- The second record of a topic, and the eleventh. -/
def recordAt (offset : ℕ) : ScopeMedallion.ScopeKafkaRecordMetadata Library.ascii where
  topic := lit "mrv.reports"
  partition := 0
  offset
  checked := ⟨.mrv, rfl, by decide⟩

/-- Slashes in an event id do not make one record of two. -/
theorem dedupKeys_identify_slash :
    ScopeMedallion.silverDedupKey Library.ascii (recordAt 1) (lit "0/x") ≠
      ScopeMedallion.silverDedupKey Library.ascii (recordAt 10) (lit "x") := by
  intro h
  obtain ⟨key, hkey⟩ : ∃ key,
      ScopeMedallion.silverDedupKey Library.ascii (recordAt 1) (lit "0/x") = .ok key :=
    ⟨_, rfl⟩
  have hlegal : LegalTopic (lit "mrv.reports") := by decide
  obtain ⟨-, -, hoffset, -⟩ := (dedupKeys_identify Library.ascii_sha256_injective).2.1 (recordAt 1)
    (recordAt 10) (lit "0/x") (lit "x") key hlegal hlegal hkey (h ▸ hkey)
  cases hoffset

end Lakehouse

import Lakehouse.Common.Decimal
import Lakehouse.Common.IsoTime
import Lakehouse.Delta.Running
import Lakehouse.Delta.Writes
import Lakehouse.Kafka.DeadLetter
/-!
# Isolates, one after the other

The first call creates the table and each for another message merges into
it. The search for an earlier quarantine and the guard of the merge read the
table in two ways: the search with an `=` filter, which every table answers,
the guard with an `in` filter, which a table that holds merge-written files
may refuse and the guard then does without. So every call returns, and the
table holds the row of the first call for each message (`isolates`).
-/

namespace Lakehouse

/-- **The library reads back an instant it has written.** -/
def Library.ReadsBack (L : Library) (us : ℤ) : Prop :=
  (L.isoformat us).IsScalar ∧ L.fromIsoformat (L.isoformat us) = .aware us

namespace Kafka

/-! ## Calls -/

/-- **A call of `quarantine`**, at an instant. The process may die once the
produce is confirmed, before it appends. -/
structure Call where
  dlqTopic : Text
  consumerGroup : Text
  value : Option Bytes
  sourceTopic : Text
  sourcePartition : ℤ
  sourceOffset : ℤ
  reason : Text
  detail : Text
  calledAt : ℤ
  interrupted : Bool
  group_encodable : consumerGroup.IsScalar
  topic_encodable : sourceTopic.IsScalar
  topic_plain : 0x2F ∉ sourceTopic
  partition_bounded : sourcePartition.natAbs ≤ 2 ^ 63
  offset_bounded : sourceOffset.natAbs ≤ 2 ^ 63
  reason_encodable : reason.IsScalar

namespace Call

/-- What tells a rejected message from the others. -/
def identity (c : Call) : Text × ℤ × ℤ × Text :=
  (c.sourceTopic, c.sourcePartition, c.sourceOffset, c.reason)

/-- The record a call builds. -/
def record (L : Library) (c : Call) : Except PyError DlqRecord :=
  buildDlqRecord L c.value c.sourceTopic c.sourcePartition c.sourceOffset c.reason c.detail
    c.consumerGroup c.calledAt

variable {F : Type} [PyFloat F]

/-- The call, on a table. -/
def program (L : Library) (uri : Text) (c : Call) : Script F Unit :=
  quarantine L ⟨c.dlqTopic, uri, c.consumerGroup⟩ c.value c.sourceTopic c.sourcePartition
    c.sourceOffset c.reason c.detail

/-- What a call does: an interrupted one stops after its produce, without a
result. -/
def perform (E : Engine F) (L : Library) (uri : Text) (c : Call) (w : World F) :
    Option (Except PyError Unit) × World F :=
  let w := { w with clock := c.calledAt }
  if c.interrupted then (none, (c.program L uri).stopAfter E.handle 2 w)
  else (some ((c.program L uri).run E.handle w).1, ((c.program L uri).run E.handle w).2)

/-- The row a call is to store. -/
def Writes (L : Library) (c : Call) (r : Row F) : Prop :=
  ∃ record event, c.record L = .ok record ∧ record.event L F c.calledAt = .ok event ∧ r = event.row

end Call

variable {F : Type} [PyFloat F]

/-- The calls one after the other, with the results of those that end. -/
def performAll (E : Engine F) (L : Library) (uri : Text) :
    List Call → World F → List (Except PyError Unit) × World F
  | [], w => ([], w)
  | c :: cs, w =>
    let (result, w) := c.perform E L uri w
    let (results, w) := performAll E L uri cs w
    (result.toList ++ results, w)

/-- The calls that end. -/
def completed (cs : List Call) : List Call := cs.filter fun c => !c.interrupted

/-- The first call for each message. -/
def firsts (cs : List Call) : List Call :=
  cs.foldl (fun ds c => if c.identity ∈ ds.map Call.identity then ds else ds ++ [c]) []

/-- **Every call returns, and the table holds one row for each message**, that
of its first call. -/
def Isolates (E : Engine F) (L : Library) (uri : Text) (cs : List Call) (w : World F) : Prop :=
  (∀ x ∈ (performAll E L uri cs w).1, x = .ok ()) ∧
    List.Forall₂ (Call.Writes L) (firsts (completed cs))
      (Ingest.storedRows uri (performAll E L uri cs w).2)

/-! ## What a call stores -/

/-- A detail cut to its bound is scalar. -/
theorem isScalar_boundedDetail (limit : ℕ) (t : Text) : (boundedDetail limit t).IsScalar := by
  induction t generalizing limit with
  | nil => exact Text.isScalar_nil
  | cons c t ih =>
    have hc : Scalar (if Scalar c then c else 0x3F) := by
      split_ifs with h
      · exact h
      · decide
    rw [boundedDetail]
    split_ifs at hc ⊢
    all_goals first
      | exact Text.isScalar_cons.2 ⟨hc, ih _⟩
      | decide

/-- Base64 is ASCII. -/
theorem isScalar_encodeStandard (b : Bytes) : (Base64.encodeStandard b).IsScalar := by
  refine Text.isScalar_append.2 ⟨fun c hc => ?_, fun c hc => ?_⟩
  · obtain ⟨n, -, rfl⟩ := List.mem_map.1 hc
    refine Or.inl ?_
    unfold Base64.digit
    split_ifs <;> omega
  · rw [List.eq_of_mem_replicate hc]
    decide

section

variable {L : Library} {c d : Call}

/-- What the id of a call's record is a hash of. -/
def Call.material (c : Call) : Text :=
  c.sourceTopic ++ 0x2F :: Text.ofInt c.sourcePartition ++ 0x2F :: Text.ofInt c.sourceOffset ++
    0x2F :: c.reason

/-- The material of an id is scalar. -/
theorem Call.isScalar_material (c : Call) : c.material.IsScalar := by
  have hslash : Scalar 0x2F := by decide
  simp only [material, Text.isScalar_append, Text.isScalar_cons]
  exact ⟨⟨⟨c.topic_encodable, hslash, Text.isScalar_ofInt _⟩, hslash, Text.isScalar_ofInt _⟩,
    hslash, c.reason_encodable⟩

/-- **The material says which message it is of.** -/
theorem Call.material_inj (h : c.material = d.material) : c.identity = d.identity := by
  obtain ⟨htopic, hpartition, hoffset, hreason⟩ := coordinates_inj c.topic_plain d.topic_plain h
  simp only [identity, htopic, hpartition, hoffset, hreason]

/-- The id of a call's record. -/
def Call.digest (L : Library) (c : Call) : Text :=
  L.sha256 ((c.material.flatMap Text.utf8Octets).map UInt8.ofNat)

/-- The material of an id has its bytes. -/
theorem Call.encode_material (c : Call) :
    encodeUtf8 c.material = .ok ((c.material.flatMap Text.utf8Octets).map UInt8.ofNat) :=
  encodeUtf8_eq_ok.2 (Text.utf8_eq_some.2 ⟨c.isScalar_material, rfl⟩)

/-- **A record's id says which message it is of.** -/
theorem Call.digest_same_iff (hinj : Function.Injective L.sha256) :
    c.digest L = d.digest L ↔ c.identity = d.identity := by
  constructor
  · intro h
    have hc := Text.utf8_eq_some.2 ⟨c.isScalar_material, rfl⟩
    have hd := Text.utf8_eq_some.2 ⟨d.isScalar_material, rfl⟩
    exact Call.material_inj (Text.utf8_injective hc (hinj h ▸ hd))
  · intro h
    simp only [identity, Prod.mk.injEq] at h
    obtain ⟨htopic, hpartition, hoffset, hreason⟩ := h
    rw [digest, digest, material, material, htopic, hpartition, hoffset, hreason]

/-- The record a call builds. -/
theorem Call.record_eq (L : Library) (c : Call) : ∃ group, c.record L = .ok {
    dlqEventId := c.digest L
    sourceTopic := c.sourceTopic
    sourcePartition := c.sourcePartition
    sourceOffset := c.sourceOffset
    reasonCode := c.reason
    errorDetail := boundedDetail maxDlqDetailBytes c.detail
    messageSha256 := L.sha256 ((c.value.getD []).take maxLineBytes)
    messageValueBase64 := Base64.encodeStandard ((c.value.getD []).take maxLineBytes)
    consumerGroupSha256 := L.sha256 group
    quarantinedAt := L.isoformat c.calledAt } := by
  obtain ⟨group, hgroup⟩ : ∃ b, encodeUtf8 c.consumerGroup = .ok b :=
    ⟨_, encodeUtf8_eq_ok.2 (Text.utf8_eq_some.2 ⟨c.group_encodable, rfl⟩)⟩
  have hid : dlqEventId L c.sourceTopic c.sourcePartition c.sourceOffset c.reason =
      .ok (c.digest L) := by
    have hmaterial := c.encode_material
    rw [dlqEventId]
    unfold material at hmaterial
    rw [hmaterial]
    rfl
  refine ⟨group, ?_⟩
  rw [record, buildDlqRecord, hid, ok_bind, hgroup]
  rfl

variable {F : Type} [PyFloat F] (hhex : ∀ b, (L.sha256 b).IsScalar) (hread : L.ReadsBack c.calledAt)

include hhex hread in
/-- A call's record can be written as JSON. -/
theorem Call.valid_json {record : DlqRecord} (h : c.record L = .ok record) :
    (record.json : Doc F).Valid PyNum.Writable Text.IsScalar := by
  obtain ⟨group, hrecord⟩ := c.record_eq L
  cases hrecord.symm.trans h
  have hbound : ∀ n : ℤ, n.natAbs ≤ 2 ^ 63 → (PyNum.int n : PyNum F).Writable := fun n hn =>
    hn.trans_lt (by decide)
  have hkeys : [lit "schema_version", lit "dlq_event_id", lit "source_topic",
      lit "source_partition", lit "source_offset", lit "reason_code", lit "error_detail",
      lit "message_sha256", lit "message_value_base64", lit "consumer_group_sha256",
      lit "quarantined_at"].Nodup := by decide
  have hversion : dlqSchemaVersion.IsScalar := by decide
  exact ⟨hkeys, ⟨by decide, hversion⟩, ⟨by decide, hhex _⟩, ⟨by decide, c.topic_encodable⟩,
    ⟨by decide, hbound _ c.partition_bounded⟩, ⟨by decide, hbound _ c.offset_bounded⟩,
    ⟨by decide, c.reason_encodable⟩, ⟨by decide, isScalar_boundedDetail _ _⟩, ⟨by decide, hhex _⟩,
    ⟨by decide, isScalar_encodeStandard _⟩, ⟨by decide, hhex _⟩, ⟨by decide, hread.1⟩, trivial⟩

/-- The row of a record. -/
theorem DlqRecord.exists_event {r : DlqRecord} {us : ℤ} {payload : Text}
    (hread : L.ReadsBack us) (hat : r.quarantinedAt = L.isoformat us)
    (hpayload : dumps { sortKeys := true } (r.json : Doc F) = .ok payload)
    (hscalar : r.dlqEventId.IsScalar ∧ r.messageSha256.IsScalar ∧ payload.IsScalar) (now : ℤ) :
    ∃ event, r.event L F now = .ok event ∧ event.eventId = r.dlqEventId ∧
      event.recordClassification = none ∧ ∀ p ∈ (event.row : Row F), p.2.Encodable := by
  refine ⟨⟨r.dlqEventId, lit "lakehouse.dlq.quarantine.v1", lit "blueeconomy-data-platform", us, us,
    lit "internal", lit "blueeconomy-data-platform-dlq", r.messageSha256, none, payload, now, none⟩,
    ?_, rfl, rfl, ?_⟩
  · rw [DlqRecord.event, parseQuarantinedAt, hat, hread.2, ok_bind, hpayload]
    rfl
  · obtain ⟨hid, hmessage, hpayload⟩ := hscalar
    have htext : ∀ t : Text, t.IsScalar → (Cell.text t : Cell F).Encodable := fun _ => id
    simp only [Event.row, Event.optional, Option.map_none, Option.getD_none, Option.toList_none,
      List.append_nil, List.forall_mem_cons]
    exact ⟨hid, htext _ (by decide), htext _ (by decide), trivial, trivial, htext _ (by decide),
      htext _ (by decide), hmessage, trivial, hpayload, trivial, List.forall_mem_nil _⟩

include hhex hread in
/-- **What a call is to do**: its record can be produced, and its row stored. -/
theorem Call.exists_event : ∃ record letter event, c.record L = .ok record ∧
    record.letter F c.dlqTopic = .ok letter ∧ record.event L F c.calledAt = .ok event ∧
      record.dlqEventId = c.digest L ∧ event.eventId = c.digest L ∧
        event.recordClassification = none ∧ ∀ p ∈ (event.row : Row F), p.2.Encodable := by
  obtain ⟨record, hrecord, hid, hmessage, hat⟩ : ∃ record, c.record L = .ok record ∧
      record.dlqEventId = c.digest L ∧ record.messageSha256.IsScalar ∧
        record.quarantinedAt = L.isoformat c.calledAt := by
    obtain ⟨group, hrecord⟩ := c.record_eq L
    exact ⟨_, hrecord, rfl, hhex _, rfl⟩
  have hvalid := c.valid_json (F := F) hhex hread hrecord
  obtain ⟨text, htext, hscalar⟩ := exists_dumps { compact := true } hvalid
  obtain ⟨payload, hpayload, hencodable⟩ := exists_dumps { sortKeys := true } hvalid
  obtain ⟨value, hvalue⟩ : ∃ b, encodeUtf8 text = .ok b :=
    ⟨_, encodeUtf8_eq_ok.2 (Text.utf8_eq_some.2 ⟨hscalar, rfl⟩)⟩
  have hdigest : record.dlqEventId.IsScalar := hid ▸ hhex _
  obtain ⟨key, hkey⟩ : ∃ b, encodeUtf8 record.dlqEventId = .ok b :=
    ⟨_, encodeUtf8_eq_ok.2 (Text.utf8_eq_some.2 ⟨hdigest, rfl⟩)⟩
  obtain ⟨event, hevent, heventId, hlabel, hrow⟩ := DlqRecord.exists_event hread hat hpayload
    ⟨hdigest, hmessage, hencodable⟩ c.calledAt
  refine ⟨record, ⟨c.dlqTopic, key, value⟩, event, hrecord, ?_, hevent, hid, heventId.trans hid,
    hlabel, hrow⟩
  rw [DlqRecord.letter, htext, ok_bind, hvalue, ok_bind, hkey]
  rfl

end

/-! ## The first call for each message -/

variable {cs ds : List Call} {c d : Call}

/-- A further call is a first one where none before has its identity. -/
theorem firsts_concat (cs : List Call) (c : Call) : firsts (cs ++ [c]) =
    if c.identity ∈ (firsts cs).map Call.identity then firsts cs else firsts cs ++ [c] :=
  List.foldl_append

/-- Each message has its first call. -/
theorem mem_firsts {m : Text × ℤ × ℤ × Text} :
    m ∈ (firsts cs).map Call.identity ↔ m ∈ cs.map Call.identity := by
  induction cs using List.reverseRecOn with
  | nil => rfl
  | append_singleton cs c ih =>
    rw [firsts_concat, List.map_append, List.mem_append, ← ih, List.map_singleton,
      List.mem_singleton]
    split_ifs with h
    · exact (or_iff_left_of_imp fun hm => hm ▸ h).symm
    · rw [List.map_append, List.mem_append, List.map_singleton, List.mem_singleton]

/-- A message has one. -/
theorem nodup_firsts (cs : List Call) : ((firsts cs).map Call.identity).Nodup := by
  induction cs using List.reverseRecOn with
  | nil => exact List.nodup_nil
  | append_singleton cs c ih =>
    rw [firsts_concat]
    split_ifs with h
    · exact ih
    · rw [List.map_append, List.map_singleton, ← List.concat_eq_append]
      exact ih.concat h

/-! ## The table -/

/-- The columns of the quarantine table. -/
def quarantineColumns : List String := eventIdentityColumns ++ ["ingested_at"]

/-- **The table after some calls**: it holds the rows of the first call for each
message. -/
structure Holds (L : Library) (ds : List Call) (t : Table F) : Prop where
  appendOnly : t.appendOnly = true
  columns : t.columns = quarantineColumns
  rows : List.Forall₂ (Call.Writes L) (firsts ds) t.rows

/-- The stores after some calls: the first has made the table. -/
def After (L : Library) (uri : Text) (ds : List Call) (w : World F) : Prop :=
  (ds = [] ∧ w.tables uri = []) ∨ ∃ t older, w.tables uri = t :: older ∧ Holds L ds t

section

variable {E : Engine F} {L : Library} {uri : Text} {w : World F} {t : Table F} {r : Row F}

/-- The row a call writes is under its digest. -/
theorem Call.Writes.get_eventId (h : c.Writes L r) : r.get "event_id" = .text (c.digest L) := by
  obtain ⟨record, event, hrecord, hevent, rfl⟩ := h
  obtain ⟨group, hbuilt⟩ := c.record_eq L
  cases hbuilt.symm.trans hrecord
  obtain ⟨at_, -, hevent⟩ := bind_eq_ok.1 hevent
  obtain ⟨payload, -, hevent⟩ := bind_eq_ok.1 hevent
  cases hevent
  exact Event.get_eventId _

/-- The ids the table holds. -/
theorem Holds.map_eventId (h : Holds L ds t) :
    t.rows.map (·.get "event_id") = (firsts ds).map fun c => Cell.text (c.digest L) := by
  have hrows := h.rows
  revert hrows
  generalize firsts ds = fs, t.rows = rows
  intro hrows
  induction hrows with
  | nil => rfl
  | cons hwrites _ ih => rw [List.map_cons, List.map_cons, ih, hwrites.get_eventId]

/-- The ids, as the texts the search compares. -/
theorem Holds.mem_str (h : Holds L ds t) {id : Text} :
    Cell.text id ∈ t.rows.map (·.get "event_id") ↔
      id ∈ t.rows.map fun u => (u.get "event_id").str := by
  have hstr : (t.rows.map fun u => (u.get "event_id").str) = (firsts ds).map fun c => c.digest L := by
    have hcells := congrArg (List.map Cell.str) h.map_eventId
    rw [List.map_map, List.map_map] at hcells
    exact hcells
  rw [hstr, h.map_eventId, List.mem_map, List.mem_map]
  exact exists_congr fun c => and_congr_right fun _ => by rw [Cell.text.injEq]

variable (hinj : Function.Injective L.sha256)

include hinj

/-- A message has a row exactly where one of the calls was for it. -/
theorem Holds.mem_eventId (h : Holds L ds t) :
    Cell.text (c.digest L) ∈ t.rows.map (·.get "event_id") ↔ c.identity ∈ ds.map Call.identity := by
  rw [h.map_eventId, ← mem_firsts, List.mem_map, List.mem_map]
  refine exists_congr fun d => and_congr_right fun _ => ?_
  rw [Cell.text.injEq, Call.digest_same_iff hinj]

/-- A table that holds the calls is keyed by the event id. -/
theorem Holds.keyed (h : Holds L ds t) : Keyed "event_id" eventIdentityColumns t where
  columns := h.columns ▸ List.subset_append_left _ _
  text := by
    intro u hu
    obtain ⟨c, -, hc⟩ := List.mem_map.1 (h.map_eventId ▸ List.mem_map_of_mem hu)
    exact ⟨_, hc.symm⟩
  nodup := by
    rw [h.map_eventId]
    refine List.Nodup.map_on ?_ ((nodup_firsts ds).of_map _)
    intro c hc d hd heq
    exact List.inj_on_of_nodup_map (nodup_firsts ds) hc hd
      ((Call.digest_same_iff hinj).1 (Cell.text.inj heq))

end

/-! ## The search for an earlier quarantine -/

section

variable {E : Engine F} {uri id : Text} {w : World F} {t : Table F} {older : List (Table F)}

/-- Without a table nothing is quarantined yet. -/
theorem run_alreadyQuarantined_absent (hw : w.tables uri = []) :
    (alreadyQuarantined uri id).run E.handle w = (.ok false, w) := by
  have hopen : (Script.openTable uri).run E.handle w = (.error .tableNotFound, w) := by
    rw [Prog.run_op, Engine.handle, hw]
  have hnone : ((Script.openTable uri >>= fun table => .ret (some table)).orElse
      (fun e => if e = .tableNotFound then .ret none else .raise e)).run E.handle w = (.ok none, w) := by
    rw [Prog.run_orElse, Prog.run_bind_error _ hopen]
    rfl
  rw [alreadyQuarantined, Prog.run_bind_ok _ hnone]
  rfl

/-- With a table the guard reads its rows of the id. -/
theorem run_alreadyQuarantined_table (ht : w.tables uri = t :: older) :
    (alreadyQuarantined uri id).run E.handle w =
      (Script.readRows t ["event_id"] (some (.equals "event_id" id)) >>= fun existing =>
        .ret (decide (existing ≠ []))).run E.handle w := by
  have hsome : ((Script.openTable uri >>= fun table => .ret (some table)).orElse
      (fun e => if e = .tableNotFound then .ret none else .raise e)).run E.handle w =
        (.ok (some t), w) := by
    rw [Prog.run_orElse, Prog.run_bind_ok _ (E.run_openTable ht)]
    rfl
  rw [alreadyQuarantined, Prog.run_bind_ok _ hsome]

/-- **The search finds the ids the table holds**, whoever wrote its files. -/
theorem run_alreadyQuarantined_found (ht : w.tables uri = t :: older)
    (hcolumn : "event_id" ∈ t.columns) : ∃ found,
    (alreadyQuarantined uri id).run E.handle w = (.ok found, w) ∧
      (found = true ↔ id ∈ t.rows.map fun u => (u.get "event_id").str) := by
  have hread : (Script.readRows t ["event_id"] (some (.equals "event_id" id))).run E.handle w =
      (.ok (E.order (t.read ["event_id"] (some (.equals "event_id" id)))), w) :=
    E.run_readRows_filter rfl (List.cons_subset.2 ⟨hcolumn, List.nil_subset _⟩)
  rw [run_alreadyQuarantined_table ht, Prog.run_bind_ok _ hread]
  refine ⟨_, rfl, ?_⟩
  rw [decide_eq_true_eq, ne_eq, ← List.length_eq_zero_iff, (E.order_perm _).length_eq,
    List.length_eq_zero_iff, Table.read, List.map_eq_nil_iff, List.filter_eq_nil_iff]
  simp

end

/-! ## A call -/

section

variable {E : Engine F} {L : Library} {uri : Text} {w : World F} {record : DlqRecord}
  {letter : DeadLetter}

/-- A call goes on with its append once its produce is confirmed. -/
theorem Call.run_program (hrecord : c.record L = .ok record)
    (hletter : record.letter F c.dlqTopic = .ok letter) (hclock : w.clock = c.calledAt) :
    (c.program L uri).run E.handle w =
      (appendQuarantineRow L ⟨c.dlqTopic, uri, c.consumerGroup⟩ record).run E.handle
        { w with deadLetters := w.deadLetters ++ [letter] } := by
  have hnow : (Script.now : Script F ℤ).run E.handle w = (.ok c.calledAt, w) := by
    rw [Prog.run_op, Engine.handle, hclock]
  have hdeliver : (Script.deliver letter : Script F (ℕ × List Text)).run E.handle w =
      (.ok (0, []), { w with deadLetters := w.deadLetters ++ [letter] }) := by
    rw [Prog.run_op, Engine.handle]
  rw [Call.record] at hrecord
  rw [program, quarantine, Prog.run_bind_ok _ hnow, hrecord]
  simp only [Script.pure, Prog.lift_ok, Prog.ret_bind, hletter]
  rw [Prog.run_bind_ok _ hdeliver, if_neg (by simp)]

/-- Stopped there, it has changed no table. -/
theorem Call.stopAfter_program (hrecord : c.record L = .ok record)
    (hletter : record.letter F c.dlqTopic = .ok letter) (hclock : w.clock = c.calledAt) :
    (c.program L uri).stopAfter E.handle 2 w =
      { w with deadLetters := w.deadLetters ++ [letter] } := by
  have hnow : E.handle (.now : Op F) w = (.ok c.calledAt, w) := by
    rw [Engine.handle, hclock]
  have hdeliver : E.handle (.deliver letter) w =
      (.ok (0, []), { w with deadLetters := w.deadLetters ++ [letter] }) := rfl
  rw [Call.record] at hrecord
  rw [program, quarantine, Prog.stopAfter_op_bind hnow, hrecord]
  simp only [Script.pure, Prog.lift_ok, Prog.ret_bind, hletter]
  rw [Prog.stopAfter_op_bind hdeliver]
  rfl

/-- A message that is not found is appended. -/
theorem run_appendQuarantineRow {dlq : DeadLetterQueue} {event : Event} {w' : World F}
    {a : Ingest.Appended}
    (hfound : (alreadyQuarantined dlq.quarantineTableUri record.dlqEventId).run E.handle w =
      (.ok false, w))
    (hevent : record.event L F w.clock = .ok event)
    (happend : (Ingest.appendEvents L dlq.quarantineTableUri [event.row]
      (some dlqTableDescription)).run E.handle w = (.ok a, w')) :
    (appendQuarantineRow L dlq record).run E.handle w = (.ok (), w') := by
  have hnow : (Script.now : Script F ℤ).run E.handle w = (.ok w.clock, w) := by
    rw [Prog.run_op, Engine.handle]
  rw [appendQuarantineRow, Prog.run_bind_ok _ hfound, if_neg (by simp), Prog.run_bind_ok _ hnow,
    hevent]
  simp only [Script.pure, Prog.lift_ok, Prog.ret_bind]
  rw [Prog.run_orElse, Prog.run_bind_ok _ happend]
  rfl

variable {event : Event}

omit [PyFloat F] in
/-- What Arrow makes of one row. -/
theorem fromPylist_row (hlabel : event.recordClassification = none)
    (hrow : ∀ p ∈ (event.row : Row F), p.2.Encodable) :
    ArrowTable.fromPylist [(event.row : Row F)] none = .ok ⟨quarantineColumns, [event.row]⟩ := by
  have hcolumns : (event.row : Row F).columns = quarantineColumns := Event.columns_row hlabel
  have hnodup : (event.row : Row F).columns.Nodup := by
    rw [hcolumns]
    decide
  have hproject : (event.row : Row F).project quarantineColumns = event.row := by
    rw [← hcolumns, Row.project_columns_self hnodup]
  have hstored : ([(event.row : Row F)]).map (Row.project quarantineColumns) = [event.row] := by
    rw [List.map_singleton, hproject]
  rw [ArrowTable.fromPylist]
  simp only [List.head?_cons, Option.map_some, Option.getD_some, Option.getD_none, hcolumns, hstored]
  rw [if_pos]
  exact List.forall_mem_singleton.2 hrow

variable (hinj : Function.Injective L.sha256) (huri : Uri.validateTableUri L uri = .ok ())
  (hwrites : c.Writes L (event.row : Row F)) (hlabel : event.recordClassification = none)
  (hrow : ∀ p ∈ (event.row : Row F), p.2.Encodable)

include huri hwrites hlabel hrow

/-- **The first call makes the table.** -/
theorem run_append_create (hw : w.tables uri = []) : ∃ a w',
    (Ingest.appendEvents L uri [event.row] (some dlqTableDescription)).run E.handle w = (.ok a, w') ∧
      After L uri [c] w' := by
  have hb : Batch (F := F) "event_id" eventIdentityColumns ([event].map Event.row) none :=
    Batch.events (List.cons_ne_nil _ _) (List.nodup_singleton _)
  have hdescription : Ingest.tableDescriptionOr (some dlqTableDescription) =
      .ok dlqTableDescription := by decide +kernel
  refine ⟨_, _, Ingest.run_appendRows_create hb huri (fromPylist_row hlabel hrow) hdescription hw,
    .inr ⟨_, _, World.push_tables_self _ _ _, ?_⟩⟩
  exact ⟨rfl, rfl, .cons hwrites .nil⟩

include hinj in
/-- **A call for another message merges into it.** -/
theorem run_append_merge {t : Table F} {older : List (Table F)} (ht : w.tables uri = t :: older)
    (hds : Holds L ds t) (hnew : c.identity ∉ ds.map Call.identity) : ∃ a w',
    (Ingest.appendEvents L uri [event.row] (some dlqTableDescription)).run E.handle w = (.ok a, w') ∧
      After L uri (ds ++ [c]) w' := by
  have hb : Batch (F := F) "event_id" eventIdentityColumns ([event].map Event.row) none :=
    Batch.events (List.cons_ne_nil _ _) (List.nodup_singleton _)
  have hkeyed := hds.keyed hinj
  have hfresh : (event.row : Row F).get "event_id" ∉ t.rows.map (·.get "event_id") := by
    rw [hwrites.get_eventId]
    exact fun h => hnew ((hds.mem_eventId hinj).1 h)
  have hagrees : Ingest.Agrees "event_id" eventIdentityColumns [(event.row : Row F)] t := by
    intro r hr u hu hk
    rw [List.mem_singleton.1 hr] at hk
    exact absurd (hk ▸ List.mem_map_of_mem hu) hfresh
  have hrefl : ∀ r ∈ [(event.row : Row F)], ∀ col ∈ eventIdentityColumns,
      (r.get col).eq (r.get col) = true := by
    intro r hr
    rw [List.mem_singleton.1 hr]
    exact event.eq_self
  have hunmatched : Table.unmatched "event_id" t [(event.row : Row F)] = [event.row] := by
    have hmem : (event.row : Row F) ∈ Table.unmatched "event_id" t [(event.row : Row F)] :=
      (mem_unmatched hkeyed.text ⟨_, event.get_eventId⟩).2 ⟨List.mem_singleton_self _, hfresh⟩
    refine List.filter_eq_self.2 fun r hr => ?_
    rw [List.mem_singleton.1 hr]
    exact (List.mem_filter.1 hmem).2
  obtain ⟨version, hrun⟩ : ∃ version, (Ingest.appendRows L uri [event.row] "event_id"
      (some dlqTableDescription) none (lit "blueeconomy_event_envelope")).run E.handle w =
        (.ok ⟨version, _, _⟩, E.merged w uri t t "event_id" ⟨quarantineColumns, [event.row]⟩) :=
    Ingest.run_appendRows_merge hb huri (fromPylist_row hlabel hrow) ht hkeyed hds.appendOnly hagrees
      hrefl fun _ => hds.columns ▸ List.Subset.refl _
  have hmerged : E.merged w uri t t "event_id" ⟨quarantineColumns, [event.row]⟩ =
      w.push uri (t.mergeInsert "event_id" t [event.row]) := by
    rw [Engine.merged, if_neg fun h => List.cons_ne_nil _ _ (hunmatched.symm.trans h.1)]
  rw [hmerged] at hrun
  refine ⟨_, _, hrun, .inr ⟨_, _, World.push_tables_self _ _ _, ?_⟩⟩
  refine ⟨hds.appendOnly, hds.columns, ?_⟩
  have hcolumns : (event.row : Row F).columns = quarantineColumns := Event.columns_row hlabel
  have hnodup : (event.row : Row F).columns.Nodup := by
    rw [hcolumns]
    decide
  rw [Table.mergeInsert, hunmatched, List.map_singleton, hds.columns, ← hcolumns,
    Row.project_columns_self hnodup, firsts_concat, if_neg (mem_firsts.not.2 hnew)]
  exact List.rel_append hds.rows (.cons hwrites .nil)

end

/-! ## The sequence -/

section

variable {E : Engine F} {L : Library} {uri : Text} {w : World F}
variable (hinj : Function.Injective L.sha256) (hhex : ∀ b, (L.sha256 b).IsScalar)

/-- What a call does to the table does not depend on the letters. -/
theorem After.delivered {w' : World F} (h : After L uri ds w) (ht : w'.tables = w.tables) :
    After L uri ds w' := by
  rwa [After, ht]

include hhex in
/-- A call that is interrupted leaves the table as it was. -/
theorem Call.perform_interrupted (hread : L.ReadsBack c.calledAt) (hc : c.interrupted = true)
    (h : After L uri ds w) :
    (c.perform E L uri w).1 = none ∧ After L uri ds (c.perform E L uri w).2 := by
  obtain ⟨record, letter, -, hrecord, hletter, -⟩ := c.exists_event (F := F) hhex hread
  rw [perform, if_pos hc, stopAfter_program hrecord hletter rfl]
  exact ⟨rfl, h.delivered rfl⟩

include hinj hhex in
/-- **A call that ends returns**, and leaves the table as it should be. -/
theorem Call.perform_returns (huri : Uri.validateTableUri L uri = .ok ())
    (hread : L.ReadsBack c.calledAt) (hc : c.interrupted = false) (h : After L uri ds w) :
    (c.perform E L uri w).1 = some (.ok ()) ∧
      After L uri (ds ++ [c]) (c.perform E L uri w).2 := by
  obtain ⟨record, letter, event, hrecord, hletter, hevent, hid, -, hlabel, hrow⟩ :=
    c.exists_event (F := F) hhex hread
  have hwrites : c.Writes L (event.row : Row F) := ⟨record, event, hrecord, hevent, rfl⟩
  rw [perform, if_neg (by simp [hc]), run_program hrecord hletter rfl]
  generalize hv : ({ w with clock := c.calledAt, deadLetters := w.deadLetters ++ [letter] } :
    World F) = v
  have hclock : v.clock = c.calledAt := hv ▸ rfl
  have htables : v.tables = w.tables := hv ▸ rfl
  obtain ⟨rfl, hnone⟩ | ⟨t, older, ht, hholds⟩ := h.delivered htables
  · obtain ⟨a, w', happend, hafter⟩ := run_append_create (E := E) huri hwrites hlabel hrow hnone
    rw [run_appendQuarantineRow (run_alreadyQuarantined_absent hnone) (hclock ▸ hevent) happend]
    exact ⟨rfl, hafter⟩
  · obtain ⟨found, hsearch, hfound⟩ : ∃ found,
        (alreadyQuarantined uri record.dlqEventId).run E.handle v = (.ok found, v) ∧
          (found = true ↔ record.dlqEventId ∈ t.rows.map fun u => (u.get "event_id").str) :=
      run_alreadyQuarantined_found ht (hholds.columns ▸ by decide)
    rw [hid, ← hholds.mem_str, hholds.mem_eventId hinj] at hfound
    cases found with
    | true =>
      rw [appendQuarantineRow, Prog.run_bind_ok _ hsearch, if_pos rfl]
      refine ⟨rfl, .inr ⟨t, older, ht, hholds.appendOnly, hholds.columns, ?_⟩⟩
      rw [firsts_concat, if_pos (mem_firsts.2 (hfound.1 rfl))]
      exact hholds.rows
    | false =>
      have hnew : c.identity ∉ ds.map Call.identity := fun hold => by cases hfound.2 hold
      obtain ⟨a, w', happend, hafter⟩ := run_append_merge (E := E) hinj huri hwrites hlabel hrow ht
        hholds hnew
      rw [run_appendQuarantineRow hsearch (hclock ▸ hevent) happend]
      exact ⟨rfl, hafter⟩

include hinj hhex in
/-- **How a sequence goes on**: each call that ends returns, and the table is
then as the calls that ended make it. -/
theorem performAll_spec (huri : Uri.validateTableUri L uri = .ok ())
    (hread : ∀ c ∈ cs, L.ReadsBack c.calledAt) (h : After L uri ds w) :
    (∀ x ∈ (performAll E L uri cs w).1, x = .ok ()) ∧
      After L uri (ds ++ completed cs) (performAll E L uri cs w).2 := by
  induction cs generalizing ds w with
  | nil =>
    refine ⟨List.forall_mem_nil _, ?_⟩
    rwa [completed, List.filter_nil, List.append_nil]
  | cons c cs ih =>
    obtain ⟨hc, hcs⟩ := List.forall_mem_cons.1 hread
    cases hint : c.interrupted with
    | true =>
      obtain ⟨hnone, hafter⟩ := Call.perform_interrupted (E := E) hhex hc hint h
      have hcompleted : completed (c :: cs) = completed cs := List.filter_cons_of_neg (by simp [hint])
      rw [performAll, hcompleted]
      simp only [hnone, Option.toList_none, List.nil_append]
      exact ih hcs hafter
    | false =>
      obtain ⟨hreturns, hafter⟩ := Call.perform_returns (E := E) hinj hhex huri hc hint h
      have hcompleted : completed (c :: cs) = c :: completed cs :=
        List.filter_cons_of_pos (by simp [hint])
      rw [performAll, hcompleted, List.append_cons]
      simp only [hreturns, Option.toList_some, List.singleton_append, List.forall_mem_cons, true_and]
      exact ih hcs hafter

end

/-! ### Two messages -/

/-- A message of a partition, rejected. -/
def rejected (offset : ℕ) (hoffset : offset ≤ 2 ^ 63) (interrupted : Bool) : Call where
  dlqTopic := lit "events.dlq"
  consumerGroup := lit "lakehouse"
  value := none
  sourceTopic := lit "events"
  sourcePartition := 0
  sourceOffset := offset
  reason := reasonMalformedEnvelope
  detail := lit "Kafka message value is required"
  calledAt := 0
  interrupted
  group_encodable := by decide
  topic_encodable := by decide
  topic_plain := by decide
  partition_bounded := by decide
  offset_bounded := hoffset
  reason_encodable := by decide

/-- A store that behaves as `read_identity_rows` documents. -/
def documented : Engine Decimal := { Engine.plain Decimal with refusesIn := true }

def quarantineUri : Text := lit "/srv/lakehouse/quarantine/events"

def freshStores : World Decimal := ⟨fun _ => [], [], [], fun _ => none, 0⟩

/-- The sample calls are at instants that are read back. -/
theorem readsBack_rejected {offset : ℕ} (hoffset : offset ≤ 2 ^ 63) (interrupted : Bool) :
    Library.ascii.ReadsBack (rejected offset hoffset interrupted).calledAt := by
  have hepoch : Library.ascii.ReadsBack 0 := ⟨by decide +kernel, by decide +kernel⟩
  exact hepoch

end Kafka

end Lakehouse

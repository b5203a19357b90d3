import Lakehouse.Common.Counts
import Lakehouse.Common.Translate
import Lakehouse.Kafka.Durability
/-!
# A batch accounts for its messages

What the loop of a batch asks of its surroundings is the clock, for the
decoder, and quarantine calls (`collect`); `collectMessages` is that loop
with the program of each call in its place (`collectMessages_eq`). Over
any decoder and whatever the calls answer, a batch that is returned
accounts for every message polled (`collectMessages_accounts`).
-/

namespace Lakehouse

namespace Kafka

variable {F : Type} [PyFloat F] {L : Library}
variable {decode : ℤ → Option Bytes → Except PyError Event} {maximum : ℕ}

/-- The arguments of `dlq.quarantine`. -/
structure QuarantineCall where
  value : Option Bytes
  topic : Text
  partition : ℤ
  offset : ℤ
  reason : Text
  detail : Text
  deriving DecidableEq

/-- What the loop asks of its surroundings. -/
inductive Ask where
  | now
  | quarantine (call : QuarantineCall)

def Ask.Answer : Ask → Type
  | now => ℤ
  | quarantine _ => Unit

/-- A program of the loop. -/
abbrev Loop (α : Type) : Type := Prog Ask Ask.Answer PyError α

def Loop.now : Loop ℤ := Prog.op Ask.now

def Loop.quarantine (call : QuarantineCall) : Loop Unit := Prog.op (Ask.quarantine call)

/-- What was asked and answered. -/
abbrev Asked : Type := Prog.Exchange Ask Ask.Answer PyError

/-- The quarantine of a message that raised a `ValueError`. -/
def rejectMessage (m : Message) (e : PyError) : Loop Unit :=
  match m.topic, m.partition, m.offset with
  | some topic, some partition, some offset =>
    Loop.quarantine ⟨m.value, topic, partition, offset, rejectionReason e, e.text⟩
  | _, _, _ => .raise (.valueError
      (lit "poison Kafka message did not contain topic, partition and offset"))

/-- The end of a batch, which may not be empty. -/
def returnBatch (acc : Collected) : Loop Collected :=
  if acc.messages = [] then
    .raise (.valueError (lit "no Kafka messages were received before the idle timeout"))
  else .ret acc

variable (L decode maximum) in
/-- **`_collect_messages`**, over the clock and the quarantine calls. -/
def collect : List Poll → Collected → Loop Collected
  | [], acc => returnBatch acc
  | poll :: polls, acc =>
    if maximum ≤ acc.messages.length then returnBatch acc
    else match poll with
    | .idle | .partitionEof => collect polls acc
    | .brokerError => .raise .kafkaException
    | .message m => do
      let us ← Loop.now
      match decode us m.value >>= checkRepeat L acc with
      | .ok event => collect polls (acc.accept event m)
      | .error e =>
        if e.isValueError then do
          rejectMessage m e
          collect polls (acc.reject (rejectionReason e) m)
        else .raise e

variable (F L) in
/-- The programs of the clock and of the dead-letter queue. -/
def perform (dlq : DeadLetterQueue) : (o : Ask) → Script F o.Answer
  | .now => Script.now
  | .quarantine c =>
    quarantine L dlq c.value c.topic c.partition c.offset c.reason c.detail

variable {dlq : DeadLetterQueue}

/-- Reading the clock is performed as such. -/
theorem translate_now (g : ℤ → Loop Collected) :
    (Loop.now >>= g).translate (perform F L dlq) =
      Script.now >>= fun us => (g us).translate (perform F L dlq) :=
  Prog.translate_op_bind (f := perform F L dlq) Ask.now (g : Ask.Answer .now → Loop Collected)

/-- Rejecting a message is performed as quarantining it. -/
theorem translate_rejectMessage (m : Message) (e : PyError) (g : Unit → Loop Collected) :
    (rejectMessage m e >>= g).translate (perform F L dlq) =
      quarantineMessage L dlq m e >>= fun u => (g u).translate (perform F L dlq) := by
  obtain ⟨topic, partition, offset, value⟩ := m
  cases topic with
  | none => rfl
  | some topic =>
    cases partition with
    | none => rfl
    | some partition =>
      cases offset with
      | none => rfl
      | some offset =>
        exact Prog.translate_op_bind (f := perform F L dlq) (Ask.quarantine _)
          (g : Ask.Answer (.quarantine _) → Loop Collected)

/-- **The loop of a consumer is this one**, its calls performed. -/
theorem collectMessages_eq (polls : List Poll) (acc : Collected) :
    collectMessages L decode maximum dlq polls acc =
      (collect L decode maximum polls acc).translate (perform F L dlq) := by
  have hfinish (acc : Collected) :
      finishBatch (F := F) acc = (returnBatch acc).translate (perform F L dlq) := by
    unfold finishBatch returnBatch
    split_ifs <;> rfl
  induction polls generalizing acc with
  | nil => exact hfinish acc
  | cons poll polls ih =>
    cases poll with
    | idle | partitionEof =>
      rw [collectMessages, collect]
      split_ifs
      · exact hfinish acc
      · exact ih acc
    | brokerError =>
      rw [collectMessages, collect]
      split_ifs
      · exact hfinish acc
      · rfl
    | message m =>
      rw [collectMessages, collect]
      split_ifs
      · exact hfinish acc
      refine Eq.trans ?_ (translate_now _).symm
      refine congrArg (Script.now >>= ·) (funext fun us => ?_)
      cases decode us m.value >>= checkRepeat L acc with
      | ok event => exact ih (acc.accept event m)
      | error e =>
        dsimp only
        split_ifs
        · refine Eq.trans ?_ (translate_rejectMessage m e _).symm
          exact congrArg (quarantineMessage L dlq m e >>= ·)
            (funext fun _ => ih (acc.reject (rejectionReason e) m))
        · rfl

/-! ## Accounts -/

/-- The clock readings of a trace. -/
def readingOf : Asked → Option ℤ
  | ⟨.now, .ok us⟩ => some us
  | _ => none

/-- The quarantine calls of a trace. -/
def callOf : Asked → Option QuarantineCall
  | ⟨.quarantine c, _⟩ => some c
  | _ => none

/-- A message with the time it was decoded at and what became of it. -/
structure Handled where
  us : ℤ
  message : Message
  outcome : Event ⊕ QuarantineCall

/-- The decoder read an event from a message. -/
def Handled.Decodes (decode : ℤ → Option Bytes → Except PyError Event) (x : Handled) (e : Event) :
    Prop :=
  decode x.us x.message.value = .ok e

/-- An event whose id an earlier message was decoded to. -/
def Repeats (decode : ℤ → Option Bytes → Except PyError Event) (hs : List Handled) (e : Event) :
    Prop :=
  ∃ x ∈ hs, ∃ e', x.Decodes decode e' ∧ e'.eventId = e.eventId

variable (L decode) in
/-- Why a message is refused: it raised a `ValueError`, or it repeats an
event id. -/
inductive Refused (hs : List Handled) (us : ℤ) (m : Message) : PyError → Prop
  | raised {e : PyError} (hd : decode us m.value = .error e) (he : e.isValueError = true) :
    Refused hs us m e
  | repeated {e : Event} (hd : decode us m.value = .ok e) (he : Repeats decode hs e) :
    Refused hs us m (.valueError (lit "Kafka batch repeats event_id " ++ L.reprText e.eventId))

variable (L decode) in
/-- **Every message handled**: the first that decodes to an id is the source
of its event, and the others of a quarantine call. -/
inductive Handles : List Handled → Prop
  | nil : Handles []
  | event {hs : List Handled} (h : Handles hs) {us : ℤ} {m : Message} {e : Event}
    (hd : decode us m.value = .ok e) (hnew : ¬Repeats decode hs e) :
    Handles (hs ++ [⟨us, m, .inl e⟩])
  | quarantine {hs : List Handled} (h : Handles hs) {us : ℤ} {m : Message} {topic : Text}
    {partition offset : ℤ} {e : PyError} (ht : m.topic = some topic)
    (hp : m.partition = some partition) (ho : m.offset = some offset)
    (he : Refused L decode hs us m e) :
    Handles (hs ++ [⟨us, m, .inr ⟨m.value, topic, partition, offset, rejectionReason e, e.text⟩⟩])

variable (L decode) in
/-- **A batch that accounts for its messages**, of which it made the calls of
a trace. -/
structure Accounts (messages : List Message) (trace : List Asked) (r : Collected) : Prop where
  polled : r.messages = messages
  handled : ∃ hs, Handles L decode hs ∧ hs.map Handled.message = r.messages ∧
    hs.map Handled.us = trace.filterMap readingOf ∧
    hs.filterMap (fun x => x.outcome.getLeft?) = r.events ∧
    hs.filterMap (fun x => x.outcome.getRight?) = trace.filterMap callOf
  ids : (r.events.map Event.eventId).Nodup
  count : r.events.length + r.reasonCounts.total = r.messages.length

variable (L decode) in
/-- What the loop has collected, of the messages handled so far. -/
structure Tallied (hs : List Handled) (trace : List Asked) (acc : Collected) : Prop where
  handles : Handles L decode hs
  messages : hs.map Handled.message = acc.messages
  readings : hs.map Handled.us = trace.filterMap readingOf
  events : hs.filterMap (fun x => x.outcome.getLeft?) = acc.events
  calls : hs.filterMap (fun x => x.outcome.getRight?) = trace.filterMap callOf
  /-- An id that was decoded is an accepted one. -/
  accepted : ∀ e, Repeats decode hs e ↔ e.eventId ∈ acc.events.map Event.eventId
  nodup : (acc.events.map Event.eventId).Nodup
  distinct : acc.reasonCounts.Distinct
  count : acc.events.length + acc.reasonCounts.total = acc.messages.length

variable {hs : List Handled} {trace : List Asked} {acc : Collected} {us : ℤ} {m : Message}

/-- An event repeats one of the messages before or the last of them. -/
theorem repeats_append {x : Handled} {e : Event} :
    Repeats decode (hs ++ [x]) e ↔
      Repeats decode hs e ∨ ∃ e', x.Decodes decode e' ∧ e'.eventId = e.eventId := by
  simp only [Repeats, List.mem_append, List.mem_singleton, or_and_right, exists_or, exists_eq_left]

/-- Nothing is handled before the first poll. -/
theorem tallied_nil : Tallied L decode [] [] ⟨[], [], []⟩ where
  handles := .nil
  messages := rfl
  readings := rfl
  events := rfl
  calls := rfl
  accepted _ := ⟨fun ⟨_, hx, _⟩ => absurd hx List.not_mem_nil, nofun⟩
  nodup := List.nodup_nil
  distinct := Members.distinct_nil
  count := rfl

/-- A new event joins the batch. -/
theorem Tallied.accept (h : Tallied L decode hs trace acc) {e : Event}
    (hd : decode us m.value >>= checkRepeat L acc = .ok e) :
    Tallied L decode (hs ++ [⟨us, m, .inl e⟩]) (trace ++ [⟨.now, .ok us⟩]) (acc.accept e m) := by
  obtain ⟨e', hd, hrepeat⟩ := bind_eq_ok.1 hd
  unfold checkRepeat at hrepeat
  obtain ⟨hnew, hrepeat⟩ := guard_eq_ok.1 hrepeat
  cases hrepeat
  exact {
    handles := h.handles.event hd fun hr => hnew ((h.accepted e).1 hr)
    messages := by rw [List.map_append, h.messages]; rfl
    readings := by rw [List.map_append, List.filterMap_append, h.readings]; rfl
    events := by rw [List.filterMap_append, h.events]; rfl
    calls := by rw [List.filterMap_append, List.filterMap_append, h.calls]; rfl
    accepted := by
      intro e'
      have hself : (∃ e'', (⟨us, m, .inl e⟩ : Handled).Decodes decode e'' ∧ e''.eventId = e'.eventId) ↔
          e.eventId = e'.eventId := by
        simp only [Handled.Decodes, hd, Except.ok.injEq, exists_eq_left']
      rw [repeats_append, h.accepted e', hself, Collected.accept, List.map_append, List.mem_append,
        List.map_singleton, List.mem_singleton, eq_comm (a := e.eventId)]
    nodup := by
      rw [Collected.accept, List.map_append, List.nodup_append]
      refine ⟨h.nodup, List.nodup_singleton _, ?_⟩
      intro id hid id' hid' heq
      rw [List.map_singleton, List.mem_singleton] at hid'
      exact hnew (hid' ▸ heq ▸ hid)
    distinct := h.distinct
    count := by
      have hcount := h.count
      simp only [Collected.accept, List.length_append, List.length_singleton]
      omega }

/-- The exchange of the quarantine of a message. -/
def calling (m : Message) (topic : Text) (partition offset : ℤ) (e : PyError)
    (answer : Except PyError Unit) : Asked :=
  ⟨.quarantine ⟨m.value, topic, partition, offset, rejectionReason e, e.text⟩, answer⟩

/-- A refused message is quarantined. -/
theorem Tallied.reject (h : Tallied L decode hs trace acc) {e : PyError} {topic : Text}
    {partition offset : ℤ} (ht : m.topic = some topic) (hp : m.partition = some partition)
    (ho : m.offset = some offset) (hd : decode us m.value >>= checkRepeat L acc = .error e)
    (he : e.isValueError = true) :
    Tallied L decode
      (hs ++ [⟨us, m, .inr ⟨m.value, topic, partition, offset, rejectionReason e, e.text⟩⟩])
      (trace ++ [⟨.now, .ok us⟩] ++ [calling m topic partition offset e (.ok ())])
      (acc.reject (rejectionReason e) m) := by
  -- a message is rejected for its decoding or for its id
  have hrefused : Refused L decode hs us m e ∧
      ∀ e', decode us m.value = .ok e' → e'.eventId ∈ acc.events.map Event.eventId := by
    cases hdecode : decode us m.value with
    | error e' =>
      rw [hdecode] at hd
      cases hd
      exact ⟨.raised hdecode he, nofun⟩
    | ok e' =>
      rw [hdecode, ok_bind, checkRepeat] at hd
      split_ifs at hd with hmem
      cases hd
      refine ⟨.repeated hdecode ((h.accepted e').2 hmem), fun e'' he'' => ?_⟩
      cases he''
      exact hmem
  exact {
    handles := h.handles.quarantine ht hp ho hrefused.1
    messages := by rw [List.map_append, h.messages]; rfl
    readings := by
      rw [List.map_append, List.filterMap_append, List.filterMap_append, h.readings,
        List.append_assoc]
      rfl
    events := by rw [List.filterMap_append, h.events]; exact List.append_nil _
    calls := by
      rw [List.filterMap_append, List.filterMap_append, List.filterMap_append, h.calls,
        List.append_assoc]
      rfl
    accepted := by
      intro e'
      rw [repeats_append, h.accepted e', or_iff_left_of_imp]
      · rfl
      · rintro ⟨e'', he'', heq⟩
        exact heq ▸ hrefused.2 e'' he''
    nodup := h.nodup
    distinct := Members.Distinct.increment h.distinct _
    count := by
      have hcount := h.count
      have htotal : (acc.reject (rejectionReason e) m).reasonCounts.total =
          acc.reasonCounts.total + 1 := Members.total_increment h.distinct _
      rw [htotal]
      simp only [Collected.reject, List.length_append, List.length_singleton]
      omega }

/-! ## The loop -/

variable (L decode) in
/-- What is known wherever the loop ends: the calls it made are of the
messages it handled, and a batch it returns is tallied. -/
def Settled (messages : List Message) (t : List Asked) (x : Except PyError Collected) : Prop :=
  ∃ hs, Handles L decode hs ∧ hs.filterMap (fun x => x.outcome.getRight?) = t.filterMap callOf ∧
    hs.map Handled.message <+: messages ∧
    ∀ r, x = .ok r → Tallied L decode hs t r ∧ r.messages = messages

variable {x : Except PyError Collected} {t : List Asked}

/-- An exception leaves what was handled. -/
theorem Tallied.raised (h : Tallied L decode hs trace acc) (rest : List Message) {e : PyError}
    (ht : t.filterMap callOf = trace.filterMap callOf) :
    Settled L decode (acc.messages ++ rest) t (.error e) :=
  ⟨hs, h.handles, h.calls.trans ht.symm, h.messages ▸ List.prefix_append _ _, nofun⟩

/-- The batch returned accounts for the messages handled. -/
theorem settled_returnBatch (h : Tallied L decode hs trace acc)
    (hrun : (returnBatch acc).Asks trace x t) : Settled L decode acc.messages t x := by
  unfold returnBatch at hrun
  split_ifs at hrun
  · obtain ⟨rfl, rfl⟩ := Prog.ends_raise.1 hrun
    have hraised := h.raised [] (e := .valueError (lit "no Kafka messages were received before the idle timeout")) rfl
    rwa [List.append_nil] at hraised
  · obtain ⟨rfl, rfl⟩ := Prog.ends_ret.1 hrun
    refine ⟨hs, h.handles, h.calls, h.messages ▸ List.prefix_refl _, ?_⟩
    intro r hr
    cases hr
    exact ⟨h, rfl⟩

/-- A message is quarantined by one call, which needs its coordinates. -/
theorem asks_rejectMessage {e : PyError} {g : Unit → Loop Collected}
    (h : (rejectMessage m e >>= g).Asks trace x t) :
    (∃ topic partition offset, m.topic = some topic ∧ m.partition = some partition ∧
      m.offset = some offset ∧
        ((g ()).Asks (trace ++ [calling m topic partition offset e (.ok ())]) x t ∨
          ∃ e', x = .error e' ∧ t = trace ++ [calling m topic partition offset e (.error e')])) ∨
    ∃ e', x = .error e' ∧ t = trace := by
  unfold rejectMessage at h
  split at h
  · next topic partition offset ht hp ho =>
    refine .inl ⟨topic, partition, offset, ht, hp, ho, ?_⟩
    obtain ⟨⟨⟩, h⟩ | hraised := Prog.Asks.op_bind_cases h
    · exact .inl h
    · exact .inr hraised
  · exact .inr ⟨_, Prog.ends_raise.1 h⟩

/-- **The loop's calls are of the messages it handled**, up to the maximum,
and what it returns is tallied. -/
theorem settled_collect {polls : List Poll} (h : Tallied L decode hs trace acc)
    (hrun : (collect L decode maximum polls acc).Asks trace x t) :
    Settled L decode
      (acc.messages ++ (polledMessages polls).take (maximum - acc.messages.length)) t x := by
  -- the induction is on the polls, over every state of the collection
  induction polls generalizing hs trace acc with
  | nil =>
    have hp : polledMessages [] = [] := rfl
    rw [hp, List.take_nil, List.append_nil]
    exact settled_returnBatch h hrun
  | cons poll polls ih =>
    unfold collect at hrun
    split_ifs at hrun with hfull
    · rw [Nat.sub_eq_zero_of_le hfull, List.take_zero, List.append_nil]
      exact settled_returnBatch h hrun
    cases poll with
    | idle | partitionEof => exact ih h hrun
    | brokerError =>
      obtain ⟨rfl, rfl⟩ := Prog.ends_raise.1 hrun
      exact h.raised _ rfl
    | message m =>
      have hclock (answer : Except PyError ℤ) :
          (trace ++ [(⟨.now, answer⟩ : Asked)]).filterMap callOf = trace.filterMap callOf := by
        rw [List.filterMap_append]
        exact List.append_nil _
      obtain ⟨us, hrun⟩ | ⟨e, rfl, rfl⟩ := Prog.Asks.op_bind_cases hrun
      · cases hd : decode us m.value >>= checkRepeat L acc with
        | ok e =>
          rw [hd] at hrun
          rw [append_take_polled (not_le.1 hfull)]
          exact ih (h.accept hd) hrun
        | error e =>
          rw [hd] at hrun
          simp only at hrun
          split_ifs at hrun with he
          · obtain ⟨topic, partition, offset, ht, hp, ho, hcall⟩ | ⟨e', rfl, rfl⟩ :=
              asks_rejectMessage hrun
            · have hreject := h.reject ht hp ho hd he
              rw [append_take_polled (not_le.1 hfull)]
              obtain hrun | ⟨e', rfl, rfl⟩ := hcall
              · exact ih hreject hrun
              · refine hreject.raised _ ?_
                rw [List.filterMap_append, List.filterMap_append (l := trace ++ _)]
                rfl
            · exact h.raised _ (hclock _)
          · obtain ⟨rfl, rfl⟩ := Prog.ends_raise.1 hrun
            exact h.raised _ (hclock _)
      · exact h.raised _ (hclock _)

variable (F L decode maximum) in
/-- **A batch accounts for its messages**: the loop of a consumer is `collect`
with its calls performed, and whatever the clock and the calls answer, the
batch it returns is the messages polled, in order and up to the maximum,
each the source of one event or of one quarantine call. -/
theorem collectMessages_accounts (dlq : DeadLetterQueue) (polls : List Poll) :
    collectMessages L decode maximum dlq polls ⟨[], [], []⟩ =
        (collect L decode maximum polls ⟨[], [], []⟩).translate (perform F L dlq) ∧
      ∀ r trace, (collect L decode maximum polls ⟨[], [], []⟩).Asks [] (.ok r) trace →
        Accounts L decode (consumed maximum polls) trace r := by
  refine ⟨collectMessages_eq polls _, fun r trace hrun => ?_⟩
  obtain ⟨hs, -, -, -, hreturned⟩ := settled_collect tallied_nil hrun
  obtain ⟨h, hmessages⟩ := hreturned r rfl
  exact {
    polled := hmessages
    handled := ⟨hs, h.handles, h.messages, h.readings, h.events, h.calls⟩
    ids := h.nodup
    count := h.count }

/-! ## A batch of three -/

/-- A message at an offset. -/
def messageAt (offset : ℤ) (value : Option Bytes) : Message :=
  ⟨some (lit "ports.gate-scans"), some 0, some offset, value⟩

/-- An id, the id again, and no id. -/
def threePolls : List Poll :=
  [.idle, .message (messageAt 7 (some [0x41])), .partitionEof,
    .message (messageAt 8 (some [0x41])), .message (messageAt 9 none)]

def threeCollected : Collected where
  events := [scanned (lit "A")]
  messages := [messageAt 7 (some [0x41]), messageAt 8 (some [0x41]), messageAt 9 none]
  reasonCounts := [(reasonDuplicateEventId, 1), (reasonMalformedEnvelope, 1)]

def duplicateCall : QuarantineCall where
  value := some [0x41]
  topic := lit "ports.gate-scans"
  partition := 0
  offset := 8
  reason := reasonDuplicateEventId
  detail := lit "Kafka batch repeats event_id " ++ Library.ascii.reprText (lit "A")

def malformedCall : QuarantineCall where
  value := none
  topic := lit "ports.gate-scans"
  partition := 0
  offset := 9
  reason := reasonMalformedEnvelope
  detail := []

/-- The clock is read three times. -/
def threeAsked : List Asked :=
  [⟨.now, .ok (1 : ℤ)⟩, ⟨.now, .ok (2 : ℤ)⟩, ⟨.quarantine duplicateCall, .ok ()⟩,
    ⟨.now, .ok (3 : ℤ)⟩, ⟨.quarantine malformedCall, .ok ()⟩]

/-- The sample polls are asked one after another. -/
theorem asks_three : (collect Library.ascii decodeByte 5 threePolls ⟨[], [], []⟩).Asks []
    (.ok threeCollected) threeAsked := by
  refine .call (o := Ask.now) (r := .ok (1 : ℤ)) rfl ?_
  refine .call (o := Ask.now) (r := .ok (2 : ℤ)) rfl ?_
  refine .call (o := Ask.quarantine duplicateCall) (r := .ok ()) rfl ?_
  refine .call (o := Ask.now) (r := .ok (3 : ℤ)) rfl ?_
  refine .call (o := Ask.quarantine malformedCall) (r := .ok ()) rfl ?_
  exact .ret

/-- An event, a repeat of it and a message without a value. -/
theorem collectMessages_accounts_three :
    Accounts Library.ascii decodeByte (consumed 5 threePolls) threeAsked threeCollected :=
  (collectMessages_accounts Decimal Library.ascii decodeByte 5
    ⟨lit "dlq", lit "/srv/quarantine", lit "lakehouse"⟩ threePolls).2 _ _ asks_three

end Kafka

end Lakehouse

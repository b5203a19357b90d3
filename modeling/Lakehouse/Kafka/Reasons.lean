import Lakehouse.Kafka.Accounting
import Lakehouse.Kafka.Boundary
/-!
# Quarantine reasons

The reason a message is quarantined for is told from the text of the
exception, which may quote the message. Whatever the batch and however the
run of its loop ends, the recorded reasons are exact if and only if no
message is refused with a text that imitates a repeat
(`reasons_exact_iff`).
-/

namespace Lakehouse

namespace Kafka

open Ingest

variable {L : Library} {decode : ℤ → Option Bytes → Except PyError Event} {maximum : ℕ}
variable {hs : List Handled} {us : ℤ} {m : Message} {acc : Collected} {trace t : List Asked}

/-- **The reason that is recorded is the reason there is**: a repeat, the
reason of a rejected signature, or neither. -/
structure ReasonExact (decode : ℤ → Option Bytes → Except PyError Event) (before : List Handled)
    (us : ℤ) (m : Message) (reason : Text) : Prop where
  duplicate : reason = reasonDuplicateEventId ↔
    ∃ e, decode us m.value = .ok e ∧ Repeats decode before e
  signature : ∀ r, r ≠ reasonDuplicateEventId → r ≠ reasonMalformedEnvelope →
    (reason = r ↔ ∃ message, decode us m.value = .error (.signatureRejected r message))
  otherwise : (¬∃ e, decode us m.value = .ok e ∧ Repeats decode before e) →
    (∀ r message, decode us m.value ≠ .error (.signatureRejected r message)) →
    reason = reasonMalformedEnvelope

/-- An exception that reads as a repeat. -/
def Imitates (e : PyError) : Prop :=
  lit "repeats event_id" <:+: e.text ∨ ∃ message, e = .signatureRejected reasonDuplicateEventId message

/-- The two reasons differ. -/
theorem duplicate_ne_malformed : reasonDuplicateEventId ≠ reasonMalformedEnvelope := by decide

/-- An error that reads like a repeat is given the reason of one. -/
theorem rejectionReason_of_imitates {e : PyError} (h : Imitates e) :
    rejectionReason e = reasonDuplicateEventId := by
  unfold rejectionReason
  split_ifs with hmarked
  · rfl
  · rcases h with hmarker | ⟨message, rfl⟩
    · exact absurd hmarker hmarked
    · rfl

/-- Any other error is given its own reason. -/
theorem rejectionReason_of_not_imitates {e : PyError} (h : ¬Imitates e) :
    rejectionReason e = reasonForError e :=
  if_neg fun hmarked => h (.inl hmarked)

/-- The text of a repeat says so. -/
theorem rejectionReason_repeated (e : Event) :
    rejectionReason (.valueError (lit "Kafka batch repeats event_id " ++ L.reprText e.eventId)) =
      reasonDuplicateEventId := by
  refine if_pos ⟨lit "Kafka batch ", lit " " ++ L.reprText e.eventId, ?_⟩
  rw [← List.append_assoc]
  rfl

/-- An error that is no rejection of a signature is a malformed envelope. -/
theorem reasonForError_of_not_signature {e : PyError}
    (h : ∀ r message, e ≠ .signatureRejected r message) :
    reasonForError e = reasonMalformedEnvelope := by
  cases e <;> first | rfl | exact absurd rfl (h _ _)

/-- An exception that imitates nothing is told apart by its class. -/
theorem reasonExact_of_raised {e : PyError} (hd : decode us m.value = .error e) (h : ¬Imitates e) :
    ReasonExact decode hs us m (rejectionReason e) := by
  have hnot : ¬∃ e', decode us m.value = .ok e' ∧ Repeats decode hs e' := by
    rintro ⟨e', hok, -⟩
    rw [hd] at hok
    cases hok
  rw [rejectionReason_of_not_imitates h]
  by_cases hsignature : ∃ r message, e = .signatureRejected r message
  · obtain ⟨r, message, rfl⟩ := hsignature
    exact {
      duplicate := iff_of_false
        (fun hr => h (.inr ⟨message, congrArg (PyError.signatureRejected · message) hr⟩)) hnot
      signature := by
        intro r' _ _
        constructor
        · rintro rfl
          exact ⟨message, hd⟩
        · rintro ⟨message', herror⟩
          rw [hd] at herror
          cases herror
          rfl
      otherwise := fun _ hnone => absurd hd (hnone r message) }
  · have hplain : reasonForError e = reasonMalformedEnvelope :=
      reasonForError_of_not_signature fun r message he => hsignature ⟨r, message, he⟩
    rw [hplain]
    exact {
      duplicate := iff_of_false duplicate_ne_malformed.symm hnot
      signature := by
        intro r _ hr
        refine iff_of_false hr.symm ?_
        rintro ⟨message, herror⟩
        rw [hd] at herror
        exact hsignature ⟨r, message, Except.error.inj herror⟩
      otherwise := fun _ _ => rfl }

/-- A repeat is told by its own text. -/
theorem reasonExact_of_repeated {e : Event} (hd : decode us m.value = .ok e)
    (h : Repeats decode hs e) : ReasonExact decode hs us m reasonDuplicateEventId where
  duplicate := ⟨fun _ => ⟨e, hd, h⟩, fun _ => rfl⟩
  signature := by
    intro r hr _
    refine iff_of_false hr.symm ?_
    rintro ⟨message, herror⟩
    rw [hd] at herror
    cases herror
  otherwise := fun hnot => absurd ⟨e, hd, h⟩ hnot

/-- **One message's reason is exact if and only if its exception imitates no
repeat.** -/
theorem reasonExact_iff {e : PyError} (h : Refused L decode hs us m e) :
    ReasonExact decode hs us m (rejectionReason e) ↔
      ∀ e', decode us m.value = .error e' → ¬Imitates e' := by
  cases h with
  | raised hd he =>
    constructor
    · intro hexact e' he' himitates
      rw [hd] at he'
      cases he'
      obtain ⟨e', hok, -⟩ := hexact.duplicate.1 (rejectionReason_of_imitates himitates)
      rw [hd] at hok
      cases hok
    · exact fun hclean => reasonExact_of_raised hd (hclean e hd)
  | repeated hd hrepeats =>
    refine iff_of_true ?_ ?_
    · rw [rejectionReason_repeated]
      exact reasonExact_of_repeated hd hrepeats
    · intro e' herror
      rw [hd] at herror
      cases herror

/-! ## The messages of a batch -/

/-- What was handled of a message, after those before it. -/
inductive HandledAs (L : Library) (decode : ℤ → Option Bytes → Except PyError Event)
    (before : List Handled) (x : Handled) : Prop
  | event {e : Event} (ho : x.outcome = .inl e) (hd : x.Decodes decode e)
  | quarantine {c : QuarantineCall} {e : PyError} (ho : x.outcome = .inr c)
    (he : Refused L decode before x.us x.message e) (hr : c.reason = rejectionReason e)

/-- Every message was handled after the ones before it. -/
theorem Handles.at (h : Handles L decode hs) {before after : List Handled} {x : Handled}
    (hx : hs = before ++ x :: after) : HandledAs L decode before x := by
  induction h generalizing after with
  | nil => simp at hx
  | event _ hd _ ih =>
    rcases List.eq_nil_or_concat after with rfl | ⟨after, y, rfl⟩
    · obtain ⟨rfl, hlast⟩ := List.append_inj' hx rfl
      cases hlast
      exact .event rfl hd
    · rw [List.concat_eq_append, ← List.cons_append, ← List.append_assoc] at hx
      exact ih (List.append_inj' hx rfl).1
  | quarantine _ _ _ _ he ih =>
    rcases List.eq_nil_or_concat after with rfl | ⟨after, y, rfl⟩
    · obtain ⟨rfl, hlast⟩ := List.append_inj' hx rfl
      cases hlast
      exact .quarantine rfl he rfl
    · rw [List.concat_eq_append, ← List.cons_append, ← List.append_assoc] at hx
      exact ih (List.append_inj' hx rfl).1

/-- The reasons of the messages handled are exact. -/
def ReasonsExact (decode : ℤ → Option Bytes → Except PyError Event) (hs : List Handled) : Prop :=
  ∀ before x after c, hs = before ++ x :: after → x.outcome = .inr c →
    ReasonExact decode before x.us x.message c.reason

/-- No message handled raises what reads as a repeat. -/
def NoneImitates (decode : ℤ → Option Bytes → Except PyError Event) (hs : List Handled) : Prop :=
  ∀ x ∈ hs, ∀ e, decode x.us x.message.value = .error e → ¬Imitates e

/-- **The reasons are exact where no error imitates a repeat.** -/
theorem reasonsExact_iff (h : Handles L decode hs) :
    ReasonsExact decode hs ↔ NoneImitates decode hs := by
  constructor
  · intro hexact x hx
    obtain ⟨before, after, hsplit⟩ := List.append_of_mem hx
    cases h.at hsplit with
    | event ho hd =>
      intro e he
      rw [Handled.Decodes, he] at hd
      cases hd
    | quarantine ho he hr =>
      have hreason := hexact before x after _ hsplit ho
      rw [hr] at hreason
      exact (reasonExact_iff he).1 hreason
  · intro hnone before x after c hsplit ho
    cases h.at hsplit with
    | event ho' _ => cases ho.symm.trans ho'
    | quarantine ho' he hr =>
      cases ho.symm.trans ho'
      rw [hr]
      exact (reasonExact_iff he).2 (hnone x (hsplit ▸ List.mem_append_right before List.mem_cons_self))

variable (F : Type) [PyFloat F] (L decode maximum) in
/-- **The recorded reasons are exact if and only if no exception reads as a
repeat**: in every run of the loop, however it ends, over the messages it
handled and the quarantine calls it made. -/
theorem reasons_exact_iff (dlq : DeadLetterQueue) (polls : List Poll) :
    collectMessages L decode maximum dlq polls ⟨[], [], []⟩ =
        (collect L decode maximum polls ⟨[], [], []⟩).translate (perform F L dlq) ∧
      ∀ x trace, (collect L decode maximum polls ⟨[], [], []⟩).Asks [] x trace →
        ∃ hs, Handles L decode hs ∧
          hs.filterMap (fun x => x.outcome.getRight?) = trace.filterMap callOf ∧
          hs.map Handled.message <+: consumed maximum polls ∧
          (ReasonsExact decode hs ↔ NoneImitates decode hs) := by
  refine ⟨collectMessages_eq polls _, fun x trace hrun => ?_⟩
  obtain ⟨hs, h, hcalls, hprefix, -⟩ := settled_collect tallied_nil hrun
  exact ⟨hs, h, hcalls, hprefix, reasonsExact_iff h⟩

/-- Of the batch of three, whose refusals are a repeat and a malformed
message. -/
theorem reasons_exact_three : ∃ hs, Handles Library.ascii decodeByte hs ∧
    hs.filterMap (fun x => x.outcome.getRight?) = threeAsked.filterMap callOf ∧
    hs.map Handled.message <+: consumed 5 threePolls ∧
    (ReasonsExact decodeByte hs ↔ NoneImitates decodeByte hs) :=
  (reasons_exact_iff Library.ascii decodeByte 5 Decimal
    ⟨lit "dlq", lit "/srv/quarantine", lit "lakehouse"⟩ threePolls).2 _ _ asks_three

/-! ## A message that quotes a repeat -/

/-- A validator that quotes an event type it refuses. -/
def quotingErrors (document : Members (Doc Decimal)) : List Text :=
  match document.get (lit "eventType") with
  | some (.str t) =>
    if 0x20 ∈ t then
      [Library.ascii.reprText t ++ lit " does not match '^[a-z][a-z0-9_.-]\x7b2,127\x7d$'"]
    else []
  | _ => []

def decodeQuoting : ℤ → Option Bytes → Except PyError Event :=
  decodeEvent Library.ascii Envelope.echo [(lit "port-gateway-1", ())] quotingErrors

/-- `{"eventType":"repeats event_id"}`. -/
def quotingMessage : Message :=
  messageAt 7 (some ((lit "\x7b\"eventType\":\"repeats event_id\"\x7d").map UInt8.ofNat))

def quotingDetail : Text :=
  lit "Kafka event fails event-envelope validation: 'repeats event_id' does not match " ++
    lit "'^[a-z][a-z0-9_.-]\x7b2,127\x7d$'"

/-- The sample error quotes the text of a repeat. -/
theorem decodeQuoting_message (us : ℤ) :
    decodeQuoting us quotingMessage.value = .error (.valueError quotingDetail) := by
  have hraised : (match verifiedDocument Envelope.echo [(lit "port-gateway-1", ())] quotingErrors
      quotingMessage.value with
    | .error e => some e
    | .ok _ => none) = some (.valueError quotingDetail) := by decide +kernel
  rw [decodeQuoting, decodeEvent]
  cases hverified : verifiedDocument Envelope.echo [(lit "port-gateway-1", ())] quotingErrors
    quotingMessage.value with
  | error e =>
    rw [hverified] at hraised
    rw [Option.some.inj hraised]
    rfl
  | ok document =>
    rw [hverified] at hraised
    cases hraised

/-- The call that quarantines it. -/
def quotingCall : QuarantineCall where
  value := quotingMessage.value
  topic := lit "ports.gate-scans"
  partition := 0
  offset := 7
  reason := reasonDuplicateEventId
  detail := quotingDetail

/-- A batch of one message that fails its schema: nothing is repeated, and
the reason says so. -/
theorem not_reasonsExact_quoting :
    (collect Library.ascii decodeQuoting 1 [.message quotingMessage] ⟨[], [], []⟩).Asks []
        (.ok ⟨[], [quotingMessage], [(reasonDuplicateEventId, 1)]⟩)
        [⟨.now, .ok (1 : ℤ)⟩, ⟨.quarantine quotingCall, .ok ()⟩] ∧
      Handles Library.ascii decodeQuoting [⟨1, quotingMessage, .inr quotingCall⟩] ∧
      ¬ReasonsExact decodeQuoting [⟨1, quotingMessage, .inr quotingCall⟩] := by
  have hreason : rejectionReason (.valueError quotingDetail) = reasonDuplicateEventId := by
    decide
  have hrefused : Refused Library.ascii decodeQuoting [] 1 quotingMessage
      (.valueError quotingDetail) := .raised (decodeQuoting_message 1) rfl
  have hhandles : Handles Library.ascii decodeQuoting [⟨1, quotingMessage, .inr quotingCall⟩] := by
    have h := Handles.nil.quarantine (m := quotingMessage) rfl rfl rfl hrefused
    rw [hreason] at h
    exact h
  refine ⟨?_, hhandles, ?_⟩
  · have hreject : Collected.reject ⟨[], [], []⟩ reasonDuplicateEventId quotingMessage =
        ⟨[], [quotingMessage], [(reasonDuplicateEventId, 1)]⟩ := rfl
    rw [collect, if_neg (by decide)]
    simp only [decodeQuoting_message, error_bind, PyError.isValueError, if_true, hreason, hreject]
    refine .call (o := Ask.now) (r := .ok (1 : ℤ)) rfl ?_
    exact .call (o := Ask.quarantine quotingCall) (r := .ok ()) rfl .ret
  · intro hexact
    have hsame := hexact [] _ [] quotingCall rfl rfl
    obtain ⟨e, hok, -⟩ := hsame.duplicate.1 rfl
    rw [decodeQuoting_message] at hok
    cases hok

end Kafka

end Lakehouse

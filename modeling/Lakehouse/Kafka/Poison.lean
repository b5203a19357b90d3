import Lakehouse.Kafka.Accounting
import Lakehouse.Vessel.Refusals
/-!
# Messages that are quarantined

The loop of a batch quarantines a message whose decoding raises a
`ValueError` and goes on with the next. What else the decoders raise halts
it: a verified envelope of an instant outside the years 1 to 9999 does, and
nothing else where the AIS library raises what it is documented to
(`poison_quarantined_iff`).
-/

namespace Lakehouse

namespace Kafka

open Ingest (Undatable Requires)

variable {L : Library} {decode : ℤ → Option Bytes → Except PyError Event} {maximum : ℕ} {us : ℤ}
  {m : Message}

/-! ## The loop -/

variable (L decode maximum) in
/-- What the loop does with a message, at a reading of the clock. -/
def handle (us : ℤ) (m : Message) (polls : List Poll) (acc : Collected) : Loop Collected :=
  match decode us m.value >>= checkRepeat L acc with
  | .ok event => collect L decode maximum polls (acc.accept event m)
  | .error e =>
    if e.isValueError then do
      rejectMessage m e
      collect L decode maximum polls (acc.reject (rejectionReason e) m)
    else .raise e

variable (L decode maximum us m) in
/-- **The loop continues** with the next message, this one accepted or, by one
quarantine call, rejected. -/
def Continues : Prop :=
  ∀ polls acc, acc.messages.length < maximum → ∃ answer : ℤ → Loop Collected,
    collect L decode maximum (.message m :: polls) acc = Loop.now >>= answer ∧
      ((∃ event, answer us = collect L decode maximum polls (acc.accept event m)) ∨
        ∃ e, answer us = rejectMessage m e >>= fun _ =>
          collect L decode maximum polls (acc.reject (rejectionReason e) m))

/-- The check for a repeat raises only a `ValueError`. -/
theorem checkRepeat_raises (acc : Collected) (e : Event) :
    OnlyRaises ValueError (checkRepeat L acc e) := by
  unfold checkRepeat
  split_ifs
  · exact .error rfl
  · exact .ok _

/-- A message is handled at the time the clock shows. -/
theorem collect_message {polls : List Poll} {acc : Collected}
    (h : acc.messages.length < maximum) :
    collect L decode maximum (.message m :: polls) acc =
      Loop.now >>= fun us => handle L decode maximum us m polls acc := by
  rw [collect, if_neg (not_le.2 h)]
  rfl

/-- What is no `ValueError` is raised. -/
theorem handle_raised {polls : List Poll} {acc : Collected} {e : PyError}
    (he : decode us m.value = .error e) (hne : ¬ValueError e) :
    handle L decode maximum us m polls acc = .raise e := by
  rw [handle, he]
  exact if_neg hne

/-- A batch halts on a message of which something else is raised. -/
theorem asks_raised {polls : List Poll} {acc : Collected} {e : PyError}
    (hlength : acc.messages.length < maximum) (he : decode us m.value = .error e)
    (hne : ¬ValueError e) :
    (collect L decode maximum (.message m :: polls) acc).Asks [] (.error e) [⟨.now, .ok us⟩] := by
  rw [collect_message hlength]
  refine .call (o := Ask.now) (r := .ok us) rfl ?_
  change (handle L decode maximum us m polls acc).Asks _ _ _
  rw [handle_raised he hne]
  exact .raise

/-- What follows a reading of the clock is determined. -/
theorem now_bind_inj {f g : ℤ → Loop Collected} (h : Loop.now >>= f = Loop.now >>= g) : f = g := by
  funext us
  have hcall := eq_of_heq (Prog.call.inj h).2
  exact congrFun hcall (.ok us)

/-- **The loop continues where the decoder raises nothing but a
`ValueError`.** -/
theorem continues_iff (hmaximum : 0 < maximum) :
    Continues L decode maximum us m ↔ OnlyRaises ValueError (decode us m.value) := by
  constructor
  · intro h e he
    by_contra hne
    obtain ⟨answer, hcollect, hanswer⟩ := h [] ⟨[], [], []⟩ hmaximum
    rw [collect_message hmaximum] at hcollect
    have heq : handle L decode maximum us m [] ⟨[], [], []⟩ = answer us :=
      congrFun (now_bind_inj hcollect) us
    rw [← heq, handle_raised he hne] at hanswer
    obtain ⟨event, hanswer⟩ | ⟨e', hanswer⟩ := hanswer
    · cases hanswer
    · unfold rejectMessage at hanswer
      split at hanswer
      · cases hanswer
      · cases hanswer
        exact hne rfl
  · intro h polls acc hlength
    refine ⟨_, collect_message hlength, ?_⟩
    unfold handle
    cases hd : decode us m.value >>= checkRepeat L acc with
    | ok event => exact .inl ⟨event, rfl⟩
    | error e =>
      have he : ValueError e := h.bind (fun event _ => checkRepeat_raises acc event) e hd
      exact .inr ⟨e, if_pos he⟩

variable {F : Type} [PyFloat F] [PyMath F] [LawfulFloat F] {E : Ed25519}
  {directory : Members E.PublicKey} {schemaErrors : Members (Doc F) → List Text}
  {pyais : Vessel.Pyais F}

/-- **What halts a consumer.** `decode_event` raises what is not caught
exactly on the verified envelopes of an instant outside the years 1 to 9999;
`decode_message` on the observations of such an instant, and on those of
sentences the AIS library raises on. On every other message the loop
continues. -/
theorem poison_quarantined_iff (hschema : Requires schemaErrors) (hpyais : Vessel.Documented pyais)
    (value : Option Bytes) (now : ℤ) :
    (OnlyRaises ValueError (Ingest.decodeEvent L E directory schemaErrors now value) ↔
      ¬Undatable L E directory schemaErrors value) ∧
    (OnlyRaises ValueError (Vessel.decodeMessage L E directory schemaErrors pyais now value) ↔
      ¬Vessel.Unobservable L E directory schemaErrors pyais value) ∧
    ∀ maximum topic partition offset, 0 < maximum →
      (Continues L (Ingest.decodeEvent L E directory schemaErrors) maximum now
          ⟨topic, partition, offset, value⟩ ↔
        ¬Undatable L E directory schemaErrors value) :=
  ⟨Ingest.decodeEvent_raises_iff hschema now, Vessel.decodeMessage_raises_iff hschema hpyais now,
    fun _ _ _ _ hmaximum => (continues_iff hmaximum).trans
      (Ingest.decodeEvent_raises_iff hschema now)⟩

/-! ### An instant before the year 1 -/

section Undated

/-- The errors of a document, as far as the schema's promises go. -/
def envelopeErrors (d : Members (Doc F)) : List Text :=
  (Ingest.requiredFields.filter fun key => (d.get key).isNone).map
    (· ++ lit " is a required property") ++
  (match d.get (lit "provenance") with
  | some (.obj provenance) =>
    if (Members.get (lit "ledgerCommitHash") provenance).isNone then
      [lit "ledgerCommitHash is a required property"]
    else []
  | _ => [lit "provenance is not an object"]) ++
  match d.get (lit "classification") with
  | some (.str label) =>
    if label ∈ Segregation.canonicalClassifications then []
    else [label ++ lit " is not one of the classifications"]
  | _ => [lit "classification is not a string"]

omit [PyFloat F] [PyMath F] [LawfulFloat F] in
/-- The sample schema requires what the envelope must have. -/
theorem requires_envelopeErrors : Requires (envelopeErrors (F := F)) where
  fields := by
    intro d h key hkey hnone
    have hfilter := (List.append_eq_nil_iff.1 (List.append_eq_nil_iff.1 h).1).1
    have hmem : key ∈ Ingest.requiredFields.filter fun key => (d.get key).isNone :=
      List.mem_filter.2 ⟨hkey, by rw [hnone]; rfl⟩
    rw [List.map_eq_nil_iff.1 hfilter] at hmem
    cases hmem
  ledgerCommitHash := by
    intro d provenance h hprovenance hnone
    have hblock := (List.append_eq_nil_iff.1 (List.append_eq_nil_iff.1 h).1).2
    rw [hprovenance] at hblock
    dsimp only at hblock
    rw [hnone] at hblock
    cases hblock
  classification := by
    intro d v h hv
    have hlabel := (List.append_eq_nil_iff.1 h).2
    rw [hv] at hlabel
    cases v with
    | str t => exact ⟨t, rfl⟩
    | null | bool _ | num _ | arr _ | obj _ => cases hlabel

/-- The decoder of signed envelopes. -/
def decodeEnvelope : ℤ → Option Bytes → Except PyError Event :=
  Ingest.decodeEvent (F := Decimal) Library.ascii Envelope.echo [(lit "port-gateway-1", ())]
    envelopeErrors

/-- A signed envelope of the first minute of the year 1, a minute ahead of
UTC. -/
def undated : Bytes :=
  Ingest.signedBytes ((Ingest.levelEnvelope (.int 1)).set (lit "occurredAt")
    (.str (lit "0001-01-01T00:00:00+00:01")))

/-- The sample envelope overflows the calendar. -/
theorem decode_undated : decodeEnvelope 0 (some undated) = .error .overflowError := by
  decide +kernel

/-- An AIS library that decodes nothing. -/
theorem documented_refusing :
    Vessel.Documented (fun _ => .error (.refused []) : Vessel.Pyais Decimal) where
  plain _ _ h := by cases h
  escapes _ _ h := by cases h

/-- A signed envelope of the first minute of the calendar. -/
theorem poison_quarantined_undated : Undatable (F := Decimal) Library.ascii Envelope.echo
    [(lit "port-gateway-1", ())] envelopeErrors (some undated) := by
  by_contra h
  have hraises := (poison_quarantined_iff requires_envelopeErrors documented_refusing
    (some undated) 0).1.2 h
  exact Bool.false_ne_true (hraises _ decode_undated)

/-- **The batch halts** on the message, and no quarantine call is made. -/
theorem undated_halts : Requires (envelopeErrors (F := Decimal)) ∧
    ¬OnlyRaises ValueError (decodeEnvelope 0 (some undated)) ∧
    (collect Library.ascii decodeEnvelope 5 [.message (messageAt 7 (some undated))]
      ⟨[], [], []⟩).Asks [] (.error .overflowError) [⟨.now, .ok (0 : ℤ)⟩] := by
  have hraised : ¬ValueError .overflowError := Bool.false_ne_true
  have hlength : ([] : List Message).length < 5 := by decide
  exact ⟨requires_envelopeErrors, fun h => hraised (h _ decode_undated),
    asks_raised hlength decode_undated hraised⟩

end Undated

end Kafka

end Lakehouse

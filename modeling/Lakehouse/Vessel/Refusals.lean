import Lakehouse.Ingest.Refusals
/-!
# What the vessel decoder raises

The vessel decoder raises what the event decoder does, and what the AIS
library raises that is not caught (`decodeMessage_raises_iff`). The library
is a parameter, documented to give plain fields.
-/

namespace Lakehouse

namespace Vessel

open Ingest (Undated NumbersFit Requires Fits)

variable {F : Type} [PyFloat F] [PyMath F] {L : Library} {pyais : Pyais F}
  {payload : Members (Doc F)} {schemaErrors : Members (Doc F) → List Text}

/-! ## The AIS library -/

/-- A value of a field that `asdict` is documented to give: `None`, a
boolean, a number of a few bits or a text. -/
def Plain : PyObject F → Prop
  | .datetime _ | .other _ => False
  | .int n => PyFloat.isFinite (PyFloat.ofInt n : F) = true
  | .none | .bool _ | .float _ | .str _ => True

/-- The fields of a report that are read. -/
def reportFields : List Text :=
  [lit "msg_type", lit "mmsi", lit "lat", lit "lon", lit "speed", lit "heading", lit "course"]

/-- **What the AIS library is documented to do**: the fields of a report are
plain, and what it raises that is not caught is no `ValueError`. -/
structure Documented (pyais : Pyais F) : Prop where
  plain : ∀ texts fields, pyais texts = .ok fields →
    ∀ key ∈ reportFields, Plain (fieldOrNone fields key)
  escapes : ∀ texts e, pyais texts = .error (.escapes e) → ¬ValueError e

/-- Sentences that pass their checks and on which the library raises what is
not caught. -/
def Escapes (pyais : Pyais F) (sentences : Doc F) : Prop :=
  ∃ texts e, validateAivdmSentences sentences = .ok texts ∧ pyais texts = .error (.escapes e)

omit [PyMath F] in
/-- An integer that a float holds is converted. -/
theorem floatOfInt_raises {n : ℤ} (h : PyFloat.isFinite (PyFloat.ofInt n : F) = true) :
    OnlyRaises ValueError (PyObject.floatOfInt n : Except PyError F) := by
  rw [PyObject.floatOfInt, if_pos h]
  exact .ok _

/-- A plain value is converted or refused with a `ValueError`. -/
theorem toFloat_raises {v : PyObject F} (hv : Plain v) (hne : v ≠ .none) :
    OnlyRaises ValueError v.toFloat := by
  cases v with
  | none => exact absurd rfl hne
  | bool b => exact .ok _
  | int n => exact floatOfInt_raises hv
  | float x => exact .ok _
  | str t =>
    rw [PyObject.toFloat]
    split
    · exact .ok _
    · exact .error rfl
  | datetime us => exact hv.elim
  | other o => exact hv.elim

omit [PyFloat F] [PyMath F] in
/-- A text is an MMSI or refused with a `ValueError`. -/
theorem matchMmsi_raises (t : Text) : OnlyRaises ValueError (matchMmsi t) := by
  unfold matchMmsi
  split_ifs
  · exact .ok _
  · exact .error rfl

omit [PyFloat F] [PyMath F] in
/-- A value is an MMSI or refused with a `ValueError`. -/
theorem normalizeMmsi_raises (v : PyObject F) : OnlyRaises ValueError (normalizeMmsi v) := by
  cases v with
  | int n => exact .bind (Ingest.strInt_raises n) fun t _ => matchMmsi_raises t
  | str t => exact matchMmsi_raises t
  | none | bool _ | float _ | datetime _ | other _ => exact .error rfl

omit [PyFloat F] [PyMath F] in
/-- A sentence is accepted or refused with a `ValueError`. -/
theorem validateSentence_raises (v : Doc F) : OnlyRaises ValueError (validateSentence v) := by
  unfold validateSentence
  split
  · split_ifs
    · exact .error rfl
    · exact .error rfl
    · exact .error rfl
    · exact .ok _
    · exact .error rfl
  · exact .error rfl

omit [PyFloat F] [PyMath F] in
/-- Sentences are accepted or refused with a `ValueError`. -/
theorem validateAivdmSentences_raises (v : Doc F) :
    OnlyRaises ValueError (validateAivdmSentences v) := by
  unfold validateAivdmSentences
  split
  · split_ifs
    · exact .error rfl
    · refine .collect fun x hx => ?_
      obtain ⟨v, -, rfl⟩ := List.mem_map.1 hx
      exact validateSentence_raises v
  · exact .error rfl

/-- A plain message type is compared or refused with a `ValueError`. -/
theorem isPositionType_raises {v : PyObject F} (hv : Plain v) :
    OnlyRaises ValueError (isPositionType v) := by
  cases v with
  | none | bool _ | int _ | float _ | str _ => exact .ok _
  | datetime us => exact hv.elim
  | other o => exact hv.elim

/-- A position type is a number. -/
theorem intOfType_raises {v : PyObject F} (hv : Plain v) (h : isPositionType v = .ok true) :
    OnlyRaises ValueError (intOfType v) := by
  cases v with
  | bool _ | int _ | float _ => exact .ok _
  | none | str _ => cases h
  | datetime us => exact hv.elim
  | other o => exact hv.elim

/-- A plain field is read or refused with a `ValueError`. -/
theorem optionalField_raises {unavailable : F} {admits : F → Bool} {notNumeric outOfRange : Text}
    {v : PyObject F} (hv : Plain v) :
    OnlyRaises ValueError (optionalField unavailable admits notNumeric outOfRange v) := by
  unfold optionalField
  split
  · exact .ok _
  · next hne =>
    split_ifs
    · exact .error rfl
    · refine .bind (toFloat_raises hv hne) fun _ _ => ?_
      split_ifs
      · exact .ok _
      · exact .ok _
      · exact .error rfl

/-- A plain position is read or refused with a `ValueError`. -/
theorem position_raises {fields : Members (PyObject F)} (hlat : Plain (fieldOrNone fields (lit "lat")))
    (hlon : Plain (fieldOrNone fields (lit "lon"))) : OnlyRaises ValueError (position fields) := by
  unfold position
  dsimp only
  split
  · exact .error rfl
  · exact .error rfl
  · next hne hne' =>
    refine .bind (toFloat_raises hlat hne) fun _ _ => ?_
    split
    · exact .error rfl
    · refine .bind (toFloat_raises hlon hne') fun _ _ => ?_
      split_ifs
      · exact .error rfl
      · exact .error rfl
      · exact .error rfl
      · exact .ok _

omit [PyMath F] in
/-- The decoder's failures are `ValueError`s, unless it raises what no caller
expects. -/
theorem pyaisFields_raises_iff (h : Documented pyais) (texts : List Text) :
    OnlyRaises ValueError (pyaisFields pyais texts) ↔ ¬∃ e, pyais texts = .error (.escapes e) := by
  unfold pyaisFields
  cases hpyais : pyais texts with
  | ok fields => exact iff_of_true (.ok _) (by simp)
  | error e =>
    cases e with
    | refused message => exact iff_of_true (.error rfl) (by simp)
    | escapes e =>
      refine iff_of_false (fun h' => ?_) (not_not.2 ⟨e, rfl⟩)
      exact h.escapes texts e hpyais (h' e rfl)

/-- **A report halts the consumer where the library raises what is not
caught.** -/
theorem decodeAivdm_raises_iff (h : Documented pyais) (sentences : Doc F) :
    OnlyRaises ValueError (decodeAivdm L pyais sentences) ↔ ¬Escapes pyais sentences := by
  constructor
  · rintro hraises ⟨texts, e, htexts, hpyais⟩
    have hfields := (onlyRaises_bind_iff.1 ((onlyRaises_bind_iff.1 hraises).2 texts htexts)).1
    exact (pyaisFields_raises_iff h texts).1 hfields ⟨e, hpyais⟩
  · intro hescapes
    refine .bind (validateAivdmSentences_raises sentences) fun texts htexts => ?_
    have hnot : ¬∃ e, pyais texts = .error (.escapes e) :=
      not_exists.2 fun e hpyais => hescapes ⟨texts, e, htexts, hpyais⟩
    refine .bind ((pyaisFields_raises_iff h texts).2 hnot) fun fields hfields => ?_
    have hplain : ∀ key ∈ reportFields, Plain (fieldOrNone fields key) := by
      refine h.plain texts fields ?_
      unfold pyaisFields at hfields
      split at hfields
      · next hpyais =>
        cases hfields
        exact hpyais
      · cases hfields
      · cases hfields
    refine .bind (isPositionType_raises (hplain _ (by decide))) fun isPosition htype => ?_
    split_ifs with hposition
    · exact .error rfl
    · rw [Bool.not_eq_false] at hposition
      rw [hposition] at htype
      refine .bind (normalizeMmsi_raises _) fun _ _ => ?_
      refine .bind (position_raises (hplain _ (by decide)) (hplain _ (by decide))) fun _ _ => ?_
      refine .bind (optionalField_raises (hplain _ (by decide))) fun _ _ => ?_
      refine .bind (optionalField_raises (hplain _ (by decide))) fun _ _ => ?_
      refine .bind (optionalField_raises (hplain _ (by decide))) fun _ _ => ?_
      exact .bind (intOfType_raises (hplain _ (by decide)) htype) fun _ _ => .ok _

/-! ## The payload and the row -/

omit [PyMath F] in
/-- A number that a float holds is read or refused with a `ValueError`. -/
theorem requireFiniteNumber_raises (h : NumbersFit payload) (key : Text) :
    OnlyRaises ValueError (requireFiniteNumber payload key) := by
  unfold requireFiniteNumber
  dsimp only
  split
  · next n hn =>
    obtain ⟨x, hx, hfinite⟩ := h key _ hn
    cases hx
    exact floatOfInt_raises hfinite
  · split_ifs
    · exact .ok _
    · exact .error rfl
  · exact .error rfl

omit [PyMath F] in
/-- A number that a float holds, or none, is read or refused with a
`ValueError`. -/
theorem optionalFiniteNumber_raises (h : NumbersFit payload) (key : Text) :
    OnlyRaises ValueError (optionalFiniteNumber payload key) := by
  unfold optionalFiniteNumber
  split
  · exact .ok _
  · exact .ok _
  · exact .bind (requireFiniteNumber_raises h key) fun _ _ => .ok _

omit [PyMath F] in
/-- A payload is read or refused with a `ValueError`. -/
theorem statedPayload_raises (h : NumbersFit payload) :
    OnlyRaises ValueError (statedPayload payload) := by
  refine .bind (normalizeMmsi_raises _) fun _ _ => ?_
  refine .bind (requireFiniteNumber_raises h _) fun latitude _ => ?_
  refine .bind (requireFiniteNumber_raises h _) fun longitude _ => ?_
  refine .bind ?_ fun _ _ => ?_
  · unfold validateCoordinates
    split_ifs
    · exact .error rfl
    · exact .error rfl
    · exact .ok _
  · refine .bind (optionalFiniteNumber_raises h _) fun _ _ => ?_
    refine .bind (optionalFiniteNumber_raises h _) fun _ _ => ?_
    split_ifs
    · exact .error rfl
    · exact .error rfl
    · exact .ok _

omit [PyMath F] in
/-- What a report overrides is accepted or refused with a `ValueError`. -/
theorem override_raises (p : VesselPayload F) (report : AisPositionReport F) :
    OnlyRaises ValueError (p.override report) := by
  unfold VesselPayload.override
  split_ifs
  · exact .error rfl
  · exact .error rfl
  · exact .ok _

/-- The sentences of a payload that is otherwise in order, on which the AIS
library raises what is not caught. -/
def PayloadEscapes (pyais : Pyais F) (payload : Members (Doc F)) : Prop :=
  (∃ stated, statedPayload payload = .ok stated) ∧
    Escapes pyais (Ingest.fieldOrNone payload (lit "nmeaSentences"))

/-- A payload of such numbers is decoded or refused with a `ValueError`,
unless the decoder escapes. -/
theorem decodeVesselPayload_raises_iff (h : Documented pyais) (hfit : NumbersFit payload) :
    OnlyRaises ValueError (decodeVesselPayload L pyais payload) ↔ ¬PayloadEscapes pyais payload := by
  rw [decodeVesselPayload, onlyRaises_bind_iff, and_iff_right (statedPayload_raises hfit),
    PayloadEscapes]
  have hsentences := decodeAivdm_raises_iff (L := L) h
    (Ingest.fieldOrNone payload (lit "nmeaSentences"))
  constructor
  · rintro hraises ⟨⟨stated, hstated⟩, hescapes⟩
    have hrest := hraises stated hstated
    split at hrest
    · next hnull =>
      rw [hnull] at hsentences hescapes
      exact hsentences.1 (.error rfl) hescapes
    · exact hsentences.1 (onlyRaises_bind_iff.1 hrest).1 hescapes
  · intro hnot stated hstated
    have hrest := hsentences.2 fun hescapes => hnot ⟨⟨stated, hstated⟩, hescapes⟩
    split
    · exact .ok _
    · exact .bind hrest fun report _ => override_raises stated report

omit [PyMath F] in
/-- A row is made or refused with a `ValueError`, unless its instant is
outside the calendar. -/
theorem observationRow_raises_iff {event : Ingest.InternalEvent F} {now : ℤ}
    (hrecorded : event.recordedAt = event.occurredAt) (p : VesselPayload F) :
    OnlyRaises ValueError (observationRow L now event p) ↔ ¬Undated L event.occurredAt := by
  constructor
  · intro h
    exact Ingest.parseTimestamp_raises_iff.1 (onlyRaises_bind_iff.1 h).1
  · intro h
    refine .bind (Ingest.parseTimestamp_raises_iff.2 h) fun _ _ => ?_
    refine .bind (Ingest.parseTimestamp_raises_iff.2 (hrecorded ▸ h)) fun _ _ => ?_
    split_ifs
    · exact .error rfl
    · refine .bind (Ingest.requireCanonicalText_raises _ _ _) fun _ _ => ?_
      refine .bind (Ingest.requireCanonicalText_raises _ _ _) fun _ _ => ?_
      refine .bind (Ingest.requireCanonicalText_raises _ _ _) fun _ _ => ?_
      exact .bind (Ingest.canonicalJson_raises _) fun _ _ => .ok _

/-! ## `decode_message` -/

section DecodeMessage

variable [LawfulFloat F] {E : Ed25519} {directory : Members E.PublicKey} {value : Option Bytes}
  {document : Members (Doc F)}

omit [PyMath F] in
/-- A parsed message has a signed view or is refused with a `ValueError`. -/
theorem signedViewOf_raises {text : Text} (hd : Ingest.parseMessage text = .ok document) :
    OnlyRaises ValueError (signedViewOf document) := by
  obtain ⟨hw, -⟩ := signedView_of_parse hd
  cases hc : canonicalJson (.obj document) with
  | error e =>
    rw [signedViewOf, hc]
    exact .error (Ingest.canonicalJson_raises _ e hc)
  | ok canonical =>
    obtain ⟨view, hview, -⟩ := signedViewOf_of_finite hw (finite_of_canonicalJson hw hc)
    rw [hview]
    exact .ok _

omit [PyFloat F] [PyMath F] [LawfulFloat F] in
/-- A document meets the schema or is refused with a `ValueError`. -/
theorem checkVesselSchema_raises : OnlyRaises ValueError (checkVesselSchema schemaErrors document) := by
  unfold checkVesselSchema
  split_ifs
  · exact .ok _
  · exact .error rfl

omit [PyFloat F] [PyMath F] [LawfulFloat F] in
/-- A document that passes has no schema errors. -/
theorem checkVesselSchema_eq_ok {u : Unit} (h : checkVesselSchema schemaErrors document = .ok u) :
    schemaErrors document = [] := by
  by_contra hne
  rw [checkVesselSchema, if_neg hne] at h
  cases h

omit [PyMath F] [LawfulFloat F] in
/-- An event is read or refused with a `ValueError`. -/
theorem observationEvent_raises (hs : Requires schemaErrors) (hd : schemaErrors document = []) :
    OnlyRaises ValueError (observationEvent L document) := by
  refine .bind (Ingest.mapCanonicalEnvelope_raises hs hd) fun _ _ => ?_
  split_ifs
  · exact .error rfl
  · exact .ok _

omit [PyMath F] [LawfulFloat F] in
/-- An event that is read is the envelope's. -/
theorem observationEvent_eq_ok {event : Ingest.InternalEvent F}
    (h : observationEvent L document = .ok event) :
    Ingest.mapCanonicalEnvelope L document = .ok event := by
  obtain ⟨event', hevent, h⟩ := bind_eq_ok.1 h
  split_ifs at h
  cases h
  exact hevent

/-- A verified observation on whose sentences the AIS library raises what is
not caught, or one of an instant outside the calendar. -/
def Unobservable (L : Library) (E : Ed25519) (directory : Members E.PublicKey)
    (schemaErrors : Members (Doc F) → List Text) (pyais : Pyais F) (value : Option Bytes) : Prop :=
  ∃ document event, Ingest.verifiedDocument E directory schemaErrors value = .ok document ∧
    observationEvent L document = .ok event ∧
      (PayloadEscapes pyais (event.payload.without (lit "provenance")) ∨
        (∃ p, decodeVesselPayload L pyais (event.payload.without (lit "provenance")) = .ok p) ∧
          Undated L event.occurredAt)

/-- What follows the signature. -/
theorem observe_raises_iff (h : Documented pyais) {event : Ingest.InternalEvent F} {now : ℤ}
    (hd : Ingest.verifiedDocument E directory schemaErrors value = .ok document)
    (hevent : observationEvent L document = .ok event) :
    OnlyRaises ValueError (do
      let payload ← decodeVesselPayload L pyais (event.payload.without (lit "provenance"))
      observationRow L now event payload) ↔
    ¬(PayloadEscapes pyais (event.payload.without (lit "provenance")) ∨
      (∃ p, decodeVesselPayload L pyais (event.payload.without (lit "provenance")) = .ok p) ∧
        Undated L event.occurredAt) := by
  have hmapped := observationEvent_eq_ok hevent
  obtain ⟨_, _, hprojects⟩ := Ingest.mapCanonicalEnvelope_eq_ok hmapped
  have hfit : NumbersFit (event.payload.without (lit "provenance")) := by
    intro key n hn
    rw [Members.get_without] at hn
    split_ifs at hn
    exact Ingest.numbersFit_payload hd hmapped key n hn
  rw [onlyRaises_bind_iff, decodeVesselPayload_raises_iff h hfit, not_or, not_and]
  refine and_congr_right fun _ => ?_
  simp only [observationRow_raises_iff hprojects.recordedAt]
  constructor
  · rintro hraises ⟨p, hp⟩
    exact hraises p hp
  · intro hnot p hp
    exact hnot ⟨p, hp⟩

/-- **`decode_message` halts the consumer** on a verified observation of an
instant outside the calendar or of sentences the AIS library raises on, and
on no other message. -/
theorem decodeMessage_raises_iff (hs : Requires schemaErrors) (h : Documented pyais) (now : ℤ) :
    OnlyRaises ValueError (decodeMessage L E directory schemaErrors pyais now value) ↔
      ¬Unobservable L E directory schemaErrors pyais value := by
  constructor
  · rintro hraises ⟨document, event, hd, hevent, hcond⟩
    obtain ⟨text, kid, hchecked, hkid⟩ := checked_of_verified hd
    rw [decodeMessage_of_checked L pyais now hchecked] at hraises
    obtain ⟨-, hparse, -⟩ := checkedDocument_eq_ok hchecked
    have hstep := (steps_iff_of_parse hparse kid).1 hkid
    have hmapped := (onlyRaises_bind_iff.1 hraises).2 kid hstep
    exact (observe_raises_iff h hd hevent).1 ((onlyRaises_bind_iff.1 hmapped).2 event hevent) hcond
  · intro hnot
    refine .bind (Ingest.messageText_raises value) fun text ht => ?_
    refine .bind (Ingest.parseMessage_raises text) fun document hd => ?_
    refine .bind checkVesselSchema_raises fun _ hschema => ?_
    have hnone := checkVesselSchema_eq_ok hschema
    have hchecked : checkedDocument schemaErrors value = .ok (text, document) := by
      rw [checkedDocument, ht, ok_bind, hd, ok_bind, Ingest.checkSchema, if_pos hnone]
      rfl
    refine .bind (signedViewOf_raises hd) fun view hview => ?_
    refine .bind (Ingest.verify_refuses E directory view) fun kid hkid => ?_
    have hstep : vesselSignatureStep E directory document = .ok kid := by
      rw [vesselSignatureStep, hview, ok_bind, hkid]
    have hverified : Ingest.verifiedDocument E directory schemaErrors value = .ok document := by
      rw [verifiedDocument_of_checked hchecked, (steps_iff_of_parse hd kid).2 hstep]
      rfl
    refine .bind (observationEvent_raises hs hnone) fun event hevent => ?_
    exact (observe_raises_iff h hverified hevent).2 fun hcond =>
      hnot ⟨document, event, hverified, hevent, hcond⟩

end DecodeMessage

end Vessel

end Lakehouse

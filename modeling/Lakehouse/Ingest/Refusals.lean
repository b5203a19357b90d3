import Lakehouse.Signing.Metrics
import Lakehouse.Vessel.SignedView
/-!
# What the event decoder raises

Between the bytes of a message and its row stand two parses, the schema,
the signature, the projection and the checks of the fields. All they raise
is a `ValueError`, but for `astimezone` of an instant outside the years 1
to 9999: a number that no double holds does not come that far, since no
signature is checked on it (`decodeEvent_raises_iff`).
-/

namespace Lakehouse

namespace Ingest

variable {F : Type} [PyFloat F] {L : Library} {d : Members (Doc F)} {v : Doc F}
  {schemaErrors : Members (Doc F) → List Text}

/-! ## The fields of an envelope -/

/-- The fields the schema requires. -/
def requiredFields : List Text :=
  [lit "envelopeVersion", lit "eventId", lit "eventType", lit "occurredAt", lit "producer",
    lit "correlationId", lit "fhir", lit "provenance", lit "classification"]

/-- **What the schema promises** of a document that it has no error in. -/
structure Requires (schemaErrors : Members (Doc F) → List Text) : Prop where
  fields : ∀ d, schemaErrors d = [] → ∀ key ∈ requiredFields, d.get key ≠ none
  ledgerCommitHash : ∀ d provenance, schemaErrors d = [] →
    d.get (lit "provenance") = some (.obj provenance) →
      Members.get (lit "ledgerCommitHash") provenance ≠ none
  classification : ∀ d v, schemaErrors d = [] → d.get (lit "classification") = some v →
    ∃ t, v = .str t

omit [PyFloat F] in
/-- A field the document has is read. -/
theorem field_raises {key : Text} (h : d.get key ≠ none) : OnlyRaises ValueError (field d key) := by
  unfold field
  split
  · exact .ok _
  · next hnone => exact absurd hnone h

omit [PyFloat F] in
/-- What is read of a field is its value. -/
theorem field_eq_ok {key : Text} : field d key = .ok v ↔ d.get key = some v := by
  unfold field
  cases d.get key <;> simp

omit [PyFloat F] in
/-- A text is accepted or refused with a `ValueError`. -/
theorem requireCanonicalText_raises (v : Doc F) (name : Text) (limit : ℕ) :
    OnlyRaises ValueError (requireCanonicalText L v name limit) := by
  unfold requireCanonicalText
  cases v with
  | str t =>
    dsimp only
    split_ifs
    · exact .error rfl
    · refine .bind (encodeUtf8_raises t) fun _ _ => ?_
      split_ifs
      · exact .error rfl
      · exact .ok _
  | null | bool _ | num _ | arr _ | obj _ => exact .error rfl

omit [PyFloat F] in
/-- A bundle has a primary resource or is refused with a `ValueError`. -/
theorem primaryResource_raises (bundle : Doc F) : OnlyRaises ValueError (primaryResource bundle) := by
  unfold primaryResource
  split
  · split
    · split
      · split_ifs
        · exact .error rfl
        · exact .error rfl
        · exact .ok _
      · exact .error rfl
    · exact .error rfl
    · exact .error rfl
  · exact .error rfl

omit [PyFloat F] in
/-- A provenance block is read or refused with a `ValueError`. -/
theorem provenanceBlock_raises (v : Doc F) : OnlyRaises ValueError (provenanceBlock v) := by
  cases v with
  | obj provenance => exact .ok _
  | null | bool _ | num _ | str _ | arr _ => exact .error rfl

/-- A text is mapped to a label or refused with a `ValueError`. -/
theorem mapClassification_raises (h : ∃ t, v = .str t) (eventType : Text) :
    OnlyRaises ValueError (mapClassification L v eventType) := by
  obtain ⟨t, rfl⟩ := h
  change OnlyRaises ValueError (Segregation.mapCanonicalClassification L t eventType)
  unfold Segregation.mapCanonicalClassification
  split
  · exact .error rfl
  · split
    · split
      · exact .ok _
      · exact .error rfl
      · exact .error rfl
    · split
      · exact .error rfl
      all_goals exact .ok _

/-- **An envelope without schema errors is mapped or refused.** -/
theorem mapCanonicalEnvelope_raises (hs : Requires schemaErrors) (hd : schemaErrors d = []) :
    OnlyRaises ValueError (mapCanonicalEnvelope L d) := by
  have hfield : ∀ key ∈ requiredFields, OnlyRaises ValueError (field d key) := fun key hkey =>
    field_raises (hs.fields d hd key hkey)
  unfold mapCanonicalEnvelope
  refine .bind (hfield _ (by decide)) fun _ _ => ?_
  refine .bind (requireCanonicalText_raises _ _ _) fun _ _ => ?_
  refine .bind (hfield _ (by decide)) fun _ _ => ?_
  refine .bind (requireCanonicalText_raises _ _ _) fun _ _ => ?_
  refine .bind (hfield _ (by decide)) fun _ _ => ?_
  refine .bind (requireCanonicalText_raises _ _ _) fun _ _ => ?_
  refine .bind (hfield _ (by decide)) fun _ _ => ?_
  refine .bind (primaryResource_raises _) fun _ _ => ?_
  refine .bind (hfield _ (by decide)) fun block hblock => ?_
  refine .bind (provenanceBlock_raises _) fun provenance hprovenance => ?_
  rw [provenanceBlock_eq_ok hprovenance, field_eq_ok] at hblock
  refine .bind (field_raises (hs.ledgerCommitHash d provenance hd hblock)) fun _ _ => ?_
  refine .bind (requireCanonicalText_raises _ _ _) fun _ _ => ?_
  refine .bind (hfield _ (by decide)) fun _ _ => ?_
  refine .bind (hfield _ (by decide)) fun label hlabel => ?_
  exact .bind (mapClassification_raises (hs.classification d label hd (field_eq_ok.1 hlabel)) _)
    fun _ _ => .ok _

/-! ## The document and its signature -/

/-- The bytes of a message are a text or refused with a `ValueError`. -/
theorem messageText_raises (value : Option Bytes) : OnlyRaises ValueError (messageText value) := by
  unfold messageText
  split
  · exact .error rfl
  · split_ifs
    · exact .error rfl
    · split
      · exact .error rfl
      · exact .ok _

omit [PyFloat F] in
/-- Both parses reject the constants that are not JSON. -/
theorem rejecting_raise {H : Json.Hooks (PyNum F) PyError} (h : H.Raise ValueError) :
    (rejecting H).Raise ValueError where
  number := h.number
  constant _ := .error rfl
  invalid := h.invalid

/-- A text is parsed or refused with a `ValueError`. -/
theorem parseMessage_raises (text : Text) :
    OnlyRaises ValueError (parseMessage (F := F) text) := by
  unfold parseMessage
  split
  · exact .error rfl
  · next e _ he => exact .error (Json.loads_raises (rejecting_raise defaultHooks_raise) text e he)
  · exact .ok _
  · exact .error rfl

omit [PyFloat F] in
/-- A document meets the schema or is refused with a `ValueError`. -/
theorem checkSchema_raises : OnlyRaises ValueError (checkSchema schemaErrors d) := by
  unfold checkSchema
  split_ifs
  · exact .ok _
  · exact .error rfl

omit [PyFloat F] in
/-- A document that passes has no schema errors. -/
theorem checkSchema_eq_ok {u : Unit} (h : checkSchema schemaErrors d = .ok u) :
    schemaErrors d = [] := by
  by_contra hne
  rw [checkSchema, if_neg hne] at h
  cases h

/-- **No exit of the signature check halts a consumer.** -/
theorem verify_refuses (E : Ed25519) (directory : Members E.PublicKey) (view : Members (Doc F)) :
    OnlyRaises ValueError (Envelope.verify E directory view) := by
  by_cases h : Envelope.HeaderOverflows view
  · obtain ⟨message, hverify⟩ := Envelope.verify_overflows E directory h
    rw [hverify]
    exact .error rfl
  · refine (Envelope.verify_raises E directory h).mono ?_
    rintro _ ⟨reason, -, message, rfl⟩
    rfl

/-- An integer too long to write is refused with a `ValueError`. -/
theorem strInt_raises (n : ℤ) : OnlyRaises ValueError (strInt n) := by
  unfold strInt
  split_ifs
  · exact .error rfl
  · exact .ok _

/-- A value is written or refused with a `ValueError`. -/
theorem canonicalJson_raises (v : Doc F) : OnlyRaises ValueError (canonicalJson v) := by
  refine Json.serialize_raises (fun n => ?_) v 0
  cases n with
  | int n => exact strInt_raises n
  | float x =>
    change OnlyRaises ValueError (dumpsNumber false (.float x))
    rw [dumpsNumber, if_neg Bool.false_ne_true]
    split_ifs
    · exact .ok _
    · exact .error rfl

/-- A number that `float` converts. -/
def Fits (n : PyNum F) : Prop := ∃ x : F, n.widen = .float x ∧ PyFloat.isFinite x = true

/-- A dict whose numbers `float` converts. -/
def NumbersFit (payload : Members (Doc F)) : Prop :=
  ∀ key n, payload.get key = some (.num n) → Fits n

section Verified

variable [LawfulFloat F] {E : Ed25519} {directory : Members E.PublicKey} {value : Option Bytes}

/-- A number read as a double is one that a float holds. -/
theorem fits_of_sameDouble {m n : PyNum F} (h : PyNum.SameDouble m n) (hn : n.IsDouble) : Fits m := by
  obtain ⟨x, hnx, hx, -⟩ := hn.widen
  rcases h with h | ⟨hm, -⟩
  · exact ⟨x, h.trans hnx, hx⟩
  · cases m with
    | int m => exact ⟨_, rfl, hm.1⟩
    | float y => exact ⟨_, rfl, hm.1⟩

/-- A document is verified or refused with a `ValueError`. -/
theorem verifiedDocument_raises : OnlyRaises ValueError
    (verifiedDocument E directory schemaErrors value) := by
  refine .bind (messageText_raises value) fun text _ => ?_
  refine .bind (parseMessage_raises text) fun d hd => ?_
  refine .bind checkSchema_raises fun _ _ => ?_
  obtain ⟨-, view, hview, -⟩ := Vessel.signedView_of_parse hd
  rw [hview, ok_bind]
  exact .bind (verify_refuses E directory view) fun _ _ => .ok _

omit [LawfulFloat F] in
/-- A verified document has no schema errors. -/
theorem schemaErrors_of_verified (h : verifiedDocument E directory schemaErrors value = .ok d) :
    schemaErrors d = [] := by
  obtain ⟨_, -, h⟩ := bind_eq_ok.1 h
  obtain ⟨_, -, h⟩ := bind_eq_ok.1 h
  obtain ⟨_, hschema, h⟩ := bind_eq_ok.1 h
  obtain ⟨_, -, h⟩ := bind_eq_ok.1 h
  obtain ⟨_, -, h⟩ := bind_eq_ok.1 h
  cases h
  exact checkSchema_eq_ok hschema

/-- **A verified document has no number that overflows**: no signature is
checked on one. -/
theorem fits_of_verified (h : verifiedDocument E directory schemaErrors value = .ok d) :
    (Json.obj d).Valid Fits Json.AnyText := by
  obtain ⟨text, view, kid, -, hd, hview, hverify⟩ := verifiedDocument_eq_ok h
  obtain ⟨hw, view', hview', hsame⟩ := Vessel.signedView_of_parse hd
  cases hview.symm.trans hview'
  have hdouble := Envelope.finite_of_verify (signedView_valid hview) hverify
  have hback := (Json.same_obj hsame).symm
  refine Json.Same.valid ?_ hback hdouble (Json.Valid.mono (fun _ _ => trivial) (fun _ => id) hw)
  exact fun h hm => fits_of_sameDouble h hm

/-- The numbers of a verified payload are ones that floats hold. -/
theorem numbersFit_payload (h : verifiedDocument E directory schemaErrors value = .ok d)
    {event : InternalEvent F} (he : mapCanonicalEnvelope L d = .ok event) :
    NumbersFit event.payload := by
  intro key n hn
  exact valid_get (valid_payload (fits_of_verified h) he) hn

end Verified

/-! ## The fields of a row -/

/-- A timestamp that is one of RFC 3339, whose instant in UTC is outside the
years 1 to 9999. -/
def Undated (L : Library) (v : Doc F) : Prop :=
  ∃ t, v = .str t ∧ 0x54 ∈ t ∧ L.fromIsoformat (replaceZ t) = .overflow

omit [PyFloat F] in
/-- A timestamp is read or refused with a `ValueError`, unless its instant is
outside the calendar. -/
theorem parseTimestamp_raises_iff {name : Text} :
    OnlyRaises ValueError (parseTimestamp L v name) ↔ ¬Undated L v := by
  cases v with
  | str t =>
    have hundated : Undated L (.str t : Doc F) ↔
        0x54 ∈ t ∧ L.fromIsoformat (replaceZ t) = .overflow :=
      ⟨by rintro ⟨_, ⟨⟩, h⟩; exact h, fun h => ⟨t, rfl, h⟩⟩
    rw [hundated, parseTimestamp]
    split_ifs with h
    · cases L.fromIsoformat (replaceZ t) with
      | invalid => exact iff_of_true (.error rfl) (by simp)
      | naive => exact iff_of_true (.error rfl) (by simp)
      | overflow =>
        refine iff_of_false (fun h' => ?_) (not_not.2 ⟨h, rfl⟩)
        exact Bool.false_ne_true (h' _ rfl)
      | aware us => exact iff_of_true (.ok _) (by simp)
    · exact iff_of_true (.error rfl) fun h' => h h'.1
  | null | bool _ | num _ | arr _ | obj _ =>
    refine iff_of_true (.error rfl) ?_
    rintro ⟨_, ⟨⟩, -⟩

/-- A number that a float holds is finite or refused with a `ValueError`. -/
theorem finiteFloat_raises {n : PyNum F} (h : Fits n) : OnlyRaises ValueError (finiteFloat n) := by
  obtain ⟨x, hx, hfinite⟩ := h
  cases n with
  | int n =>
    cases hx
    rw [finiteFloat, if_pos hfinite]
    exact .ok _
  | float y =>
    rw [finiteFloat]
    split_ifs
    · exact .ok _
    · exact .error rfl

omit [PyFloat F] in
/-- A field of a motion is read or refused with a `ValueError`. -/
theorem motionValue_raises (payload : Members (Doc F)) (key : Text) :
    OnlyRaises ValueError (motionValue payload key) := by
  unfold motionValue
  split
  · exact .ok _
  · exact .error rfl

omit [PyFloat F] in
/-- What is read of a motion is the number of its field. -/
theorem motionValue_eq_ok {payload : Members (Doc F)} {key : Text} {n : PyNum F}
    (h : motionValue payload key = .ok n) : payload.get key = some (.num n) := by
  unfold motionValue at h
  split at h
  · next hget =>
    cases h
    exact hget
  · cases h

/-- A position of numbers that floats hold is accepted or refused with a
`ValueError`. -/
theorem validateMaritimePosition_raises {payload : Members (Doc F)} (h : NumbersFit payload) :
    OnlyRaises ValueError (validateMaritimePosition L payload) := by
  have hfloat : ∀ {key : Text} {n : PyNum F}, motionValue payload key = .ok n →
      OnlyRaises ValueError (finiteFloat n) := fun hn => finiteFloat_raises (h _ _ (motionValue_eq_ok hn))
  unfold validateMaritimePosition
  dsimp only
  split_ifs
  · exact .error rfl
  · refine .bind (requireCanonicalText_raises _ _ _) fun _ _ => ?_
    refine .bind (motionValue_raises _ _) fun _ hlatitude => ?_
    refine .bind (motionValue_raises _ _) fun _ hlongitude => ?_
    refine .bind (motionValue_raises _ _) fun _ hspeed => ?_
    refine .bind (motionValue_raises _ _) fun _ hheading => ?_
    refine .bind (hfloat hlatitude) fun _ _ => ?_
    refine .bind (hfloat hlongitude) fun _ _ => ?_
    refine .bind (hfloat hspeed) fun _ _ => ?_
    refine .bind (hfloat hheading) fun _ _ => ?_
    split_ifs
    · exact .error rfl
    · exact .error rfl
    · exact .error rfl
    · exact .ok _
    · exact .error rfl

/-- A payload of numbers that floats hold is written or refused with a
`ValueError`. -/
theorem payloadText_raises (eventType : Text) {payload : Members (Doc F)} (h : NumbersFit payload) :
    OnlyRaises ValueError (payloadText L eventType payload) := by
  have hrest : ∀ t : Text, OnlyRaises ValueError (do
      let encoded ← encodeUtf8 t
      if maxPayloadJsonBytes < encoded.length then
        .error (.valueError (lit "payload exceeds 1048576 canonical JSON bytes"))
      else .ok t) := by
    intro t
    refine .bind (encodeUtf8_raises t) fun _ _ => ?_
    split_ifs
    · exact .error rfl
    · exact .ok _
  refine .bind (canonicalJson_raises _) fun t _ => ?_
  split_ifs
  · exact .bind (validateMaritimePosition_raises h) fun _ _ => hrest t
  · exact hrest t

omit [PyFloat F] in
/-- A correlation id is accepted or refused with a `ValueError`. -/
theorem normalizeCorrelationId_raises (v : Doc F) :
    OnlyRaises ValueError (normalizeCorrelationId L v) := by
  unfold normalizeCorrelationId
  split
  · exact .ok _
  · exact .bind (requireCanonicalText_raises _ _ _) fun _ _ => .ok _

/-- A label is known or refused with a `ValueError`. -/
theorem clearanceLabel_raises (label : Text) : OnlyRaises ValueError (clearanceLabel L label) := by
  unfold clearanceLabel
  split_ifs
  · exact .error rfl
  · exact .ok _
  · exact .error rfl

omit [PyFloat F] in
/-- The label of a record is accepted or refused with a `ValueError`. -/
theorem normalizeRecordClassification_raises (v : Doc F) :
    OnlyRaises ValueError (normalizeRecordClassification L v) := by
  unfold normalizeRecordClassification
  split
  · exact .ok _
  · refine .bind (requireCanonicalText_raises _ _ _) fun label _ => ?_
    exact .bind (clearanceLabel_raises label) fun _ _ => .ok _

/-- **A mapped event halts the consumer where its timestamp does.** -/
theorem normalizeEvent_raises_iff {event : InternalEvent F} {now : ℤ}
    (hrecorded : event.recordedAt = event.occurredAt) (hfit : NumbersFit event.payload) :
    OnlyRaises ValueError (normalizeEvent L now event) ↔ ¬Undated L event.occurredAt := by
  constructor
  · intro h
    exact parseTimestamp_raises_iff.1 (onlyRaises_bind_iff.1 h).1
  · intro h
    have htext : ∀ (t name : Text) (limit : ℕ),
        OnlyRaises ValueError (requireCanonicalText L (.str t : Doc F) name limit) := fun _ _ _ =>
      requireCanonicalText_raises _ _ _
    refine .bind (parseTimestamp_raises_iff.2 h) fun _ _ => ?_
    refine .bind (parseTimestamp_raises_iff.2 (hrecorded ▸ h)) fun _ _ => ?_
    split_ifs
    · exact .error rfl
    · refine .bind (payloadText_raises _ hfit) fun _ _ => ?_
      refine .bind (normalizeCorrelationId_raises _) fun _ _ => ?_
      refine .bind (normalizeRecordClassification_raises _) fun _ _ => ?_
      refine .bind (htext _ _ _) fun _ _ => .bind (htext _ _ _) fun _ _ => ?_
      refine .bind (htext _ _ _) fun _ _ => .bind (htext _ _ _) fun _ _ => ?_
      exact .bind (htext _ _ _) fun _ _ => .ok _

/-! ## `decode_event` -/

section DecodeEvent

variable [LawfulFloat F] {E : Ed25519} {directory : Members E.PublicKey} {value : Option Bytes}

/-- A verified envelope of an instant outside the calendar. -/
def Undatable (L : Library) (E : Ed25519) (directory : Members E.PublicKey)
    (schemaErrors : Members (Doc F) → List Text) (value : Option Bytes) : Prop :=
  ∃ d event, verifiedDocument E directory schemaErrors value = .ok d ∧
    mapCanonicalEnvelope L d = .ok event ∧ Undated L event.occurredAt

/-- An event of a verified document is normalized or refused with a
`ValueError` exactly where its instant is in the calendar. -/
theorem normalizeEvent_of_verified {event : InternalEvent F} {now : ℤ}
    (hd : verifiedDocument E directory schemaErrors value = .ok d)
    (hevent : mapCanonicalEnvelope L d = .ok event) :
    OnlyRaises ValueError (normalizeEvent L now event) ↔ ¬Undated L event.occurredAt := by
  obtain ⟨_, _, hprojects⟩ := mapCanonicalEnvelope_eq_ok hevent
  exact normalizeEvent_raises_iff hprojects.recordedAt (numbersFit_payload hd hevent)

/-- **`decode_event` halts the consumer** on a verified envelope of an instant
outside the calendar, and on no other message. -/
theorem decodeEvent_raises_iff (hs : Requires schemaErrors) (now : ℤ) :
    OnlyRaises ValueError (decodeEvent L E directory schemaErrors now value) ↔
      ¬Undatable L E directory schemaErrors value := by
  constructor
  · rintro h ⟨d, event, hd, hevent, hundated⟩
    have hmapped := (onlyRaises_bind_iff.1 h).2 d hd
    have hnormal := (onlyRaises_bind_iff.1 hmapped).2 event hevent
    exact (normalizeEvent_of_verified hd hevent).1 hnormal hundated
  · intro h
    refine .bind verifiedDocument_raises fun d hd => ?_
    refine .bind (mapCanonicalEnvelope_raises hs (schemaErrors_of_verified hd)) fun event hevent => ?_
    exact (normalizeEvent_of_verified hd hevent).2 fun hundated => h ⟨d, event, hd, hevent, hundated⟩

end DecodeEvent

end Ingest

end Lakehouse

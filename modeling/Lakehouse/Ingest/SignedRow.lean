import Lakehouse.Ingest.Decode
import Lakehouse.Signing.SignVerify
import Lakehouse.Common.Decimal
/-!
# What a signature covers

Two accepted messages that carry one signature text are one document, up
to how a number that is one double is spelled (`sameDocument`): the
signed payload fixes the double view of all but the signature. The rows
then agree in every column but the instant of ingestion and the spelling
of the numbers of the retained payload (`decodeEvent_signature`).
-/

namespace Lakehouse

namespace Ingest

variable {F : Type} {L : Library}

/-- The text of `provenance.signature` in a message. -/
def provenanceSignature (F : Type) [PyFloat F] (value : Option Bytes) : Option Text :=
  match messageText value >>= parseMessage (F := F) with
  | .ok document => Envelope.signatureText document
  | .error _ => none

/-! ## The signature text -/

/-- The signature put back. -/
theorem same_of_signedDocument {R : PyNum F → PyNum F → Prop}
    {view view' provenance provenance' : Members (Doc F)} {s : Text}
    (hp : view.get (lit "provenance") = some (.obj provenance))
    (hp' : view'.get (lit "provenance") = some (.obj provenance'))
    (hs : provenance.get (lit "signature") = some (.str s))
    (hs' : provenance'.get (lit "signature") = some (.str s))
    (h : Json.Same R (Envelope.signedDocument view provenance)
      (Envelope.signedDocument view' provenance')) : Json.SameMembers R view view' := by
  have hall := Json.Same.members h
  have hprov : Json.SameMembers R provenance provenance' := by
    have hk := hall (lit "provenance")
    rw [Members.get_set, Members.get_set, if_pos rfl, if_pos rfl] at hk
    cases hk with
    | some hk =>
      intro k
      by_cases hks : k = lit "signature"
      · rw [hks, hs, hs']
        exact .some (.str s)
      · have hk' := Json.Same.members hk k
        rwa [Members.get_without, Members.get_without, if_neg hks, if_neg hks] at hk'
  intro k
  by_cases hkp : k = lit "provenance"
  · rw [hkp, hp, hp']
    exact .some (Json.same_obj hprov)
  · have hk := hall k
    rwa [Members.get_set, Members.get_set, if_neg hkp, if_neg hkp, Members.get_without,
      Members.get_without, if_neg hkp, if_neg hkp] at hk

/-- Documents that are the same carry one signature text. -/
theorem signatureText_congr {R : PyNum F → PyNum F → Prop} {d d' : Members (Doc F)}
    (h : Json.SameMembers R d d') : Envelope.signatureText d = Envelope.signatureText d' := by
  unfold Envelope.signatureText
  have hp := h (lit "provenance")
  generalize d.get (lit "provenance") = x at hp
  generalize d'.get (lit "provenance") = y at hp
  cases hp with
  | none => rfl
  | some hp =>
    cases hp with
    | obj hnone hsome =>
      have hs := Json.Same.members (.obj hnone hsome) (lit "signature")
      dsimp only
      generalize Members.get (lit "signature") _ = x at hs ⊢
      generalize Members.get (lit "signature") _ = y at hs ⊢
      cases hs with
      | none => rfl
      | some hs => cases hs; all_goals rfl
    | null | bool _ | num _ | str _ | arr _ _ => rfl

/-! ## What is verified -/

section Verified

variable [PyFloat F] {E : Ed25519} {directory : Members E.PublicKey}

/-- A message that is parsed is an object without repeated keys. -/
theorem parseMessage_eq_ok {text : Text} {document : Members (Doc F)}
    (h : parseMessage text = .ok document) :
    Json.loads (rejecting (defaultHooks (F := F))) text = .ok (.obj document) := by
  unfold parseMessage at h
  split at h
  · cases h
  · cases h
  · next d hd =>
    cases h
    exact hd
  · cases h

/-- A signed view is the object read with floats. -/
theorem signedView_eq_ok {text : Text} {view : Members (Doc F)} (h : signedView text = .ok view) :
    Json.loads (rejecting (floatHooks (F := F))) text = .ok (.obj view) := by
  obtain ⟨v, hv, h⟩ := bind_eq_ok.1 h
  cases v with
  | obj view' => cases h; exact hv
  | null | bool _ | num _ | str _ | arr _ => cases h

/-- A verified document and its signed view are two parses of one text. -/
theorem verifiedDocument_eq_ok {schemaErrors : Members (Doc F) → List Text} {value : Option Bytes}
    {document : Members (Doc F)}
    (h : verifiedDocument E directory schemaErrors value = .ok document) :
    ∃ (text : Text) (view : Members (Doc F)) (kid : Text), messageText value = .ok text ∧ parseMessage text = .ok document ∧
      signedView text = .ok view ∧ Envelope.verify E directory view = .ok kid := by
  obtain ⟨text, ht, h⟩ := bind_eq_ok.1 h
  obtain ⟨d, hd, h⟩ := bind_eq_ok.1 h
  obtain ⟨-, -, h⟩ := bind_eq_ok.1 h
  obtain ⟨view, hview, h⟩ := bind_eq_ok.1 h
  obtain ⟨kid, hkid, h⟩ := bind_eq_ok.1 h
  cases h
  exact ⟨text, view, kid, ht, hd, hview, hkid⟩

/-- A signature verifies only over the payload of its second segment. -/
theorem verify_payload {view : Members (Doc F)} {kid : Text}
    (h : Envelope.verify E directory view = .ok kid) :
    ∃ provenance signature header payload rest bytes,
      view.get (lit "provenance") = some (.obj provenance) ∧
      Members.get (lit "signature") provenance = some (.str signature) ∧
      Text.splitOn 0x2E signature = header :: payload :: rest ∧
      Envelope.decodeBase64url payload (lit "payload") = .ok bytes ∧
      Envelope.expectedPayload view provenance = .ok bytes := by
  obtain ⟨hprov, hsig, hsplit, -, hpayload, -, -, -, -, hexp, -⟩ := Envelope.verify_eq_ok.1 h
  exact ⟨_, _, _, _, _, _, hprov, hsig, hsplit, hpayload, hexp⟩

end Verified

section Lawful

variable [PyFloat F]

/-- The numbers of a signed view are floats. -/
theorem signedView_valid {text : Text} {view : Members (Doc F)}
    (h : signedView text = .ok view) :
    (Json.obj view).Valid (fun n : PyNum F => ∃ x, n = .float x) Json.AnyText :=
  Json.loads_valid ⟨fun h => ⟨_, (Except.ok.inj h).symm⟩, nofun⟩ (signedView_eq_ok h)

/-- A signed document with a payload is a JSON value. -/
theorem signedDocument_valid {view provenance : Members (Doc F)} {bytes : Bytes}
    (hv : (Json.obj view).Valid (fun n : PyNum F => ∃ x, n = .float x) Json.AnyText)
    (hp : view.get (lit "provenance") = some (.obj provenance))
    (h : Envelope.expectedPayload view provenance = .ok bytes) :
    ∃ t, Jcs.canonicalize (Envelope.signedDocument view provenance) = .ok t ∧
      encodeUtf8 t = .ok bytes ∧
      (Envelope.signedDocument view provenance).Valid PyNum.IsDouble Text.IsScalar := by
  obtain ⟨t, ht, hb⟩ := bind_eq_ok.1 h
  have hscalar : t.IsScalar := (Text.utf8_eq_some.1 (encodeUtf8_eq_ok.1 hb)).1
  refine ⟨t, ht, hb, Json.valid_of_serialize (fun h => Json.isScalar_of_quote h) ?_ _
    (Envelope.valid_signedDocument hv hp) ht hscalar⟩
  rintro _ t ⟨x, rfl⟩ hx
  change PyFloat.isFinite x = true
  by_contra hfin
  change (if PyFloat.isFinite x then _ else _) = _ at hx
  rw [if_neg hfin] at hx
  cases hx

variable [LawfulFloat F]

/-- **One payload, one document**: signed views with one payload are the
same value but for their signatures. -/
theorem sameDouble_of_payload {view view' provenance provenance' : Members (Doc F)} {bytes : Bytes}
    (hv : (Json.obj view).Valid (fun n : PyNum F => ∃ x, n = .float x) Json.AnyText)
    (hv' : (Json.obj view').Valid (fun n : PyNum F => ∃ x, n = .float x) Json.AnyText)
    (hp : view.get (lit "provenance") = some (.obj provenance))
    (hp' : view'.get (lit "provenance") = some (.obj provenance'))
    (h : Envelope.expectedPayload view provenance = .ok bytes)
    (h' : Envelope.expectedPayload view' provenance' = .ok bytes) :
    Json.Same PyNum.SameDouble (Envelope.signedDocument view provenance)
      (Envelope.signedDocument view' provenance') := by
  obtain ⟨t, ht, hb, hvalid⟩ := signedDocument_valid hv hp h
  obtain ⟨t', ht', hb', hvalid'⟩ := signedDocument_valid hv' hp' h'
  have htt : t' = t := Except.ok.inj
    ((decodeUtf8_encodeUtf8 hb').symm.trans (decodeUtf8_encodeUtf8 hb))
  subst htt
  exact Json.Same.mono (R := fun m n : PyNum F => m.val = n.val) PyNum.sameDouble_of_val
    (Jcs.sameValue_of_canonicalize hvalid hvalid' ht ht') hvalid hvalid'

/-- **Two verified messages with one signature text are one document**, up
to how a double is spelled. -/
theorem sameDocument {E : Ed25519} {directory : Members E.PublicKey}
    {schemaErrors schemaErrors' : Members (Doc F) → List Text} {value value' : Option Bytes}
    {d d' : Members (Doc F)}
    (h : verifiedDocument E directory schemaErrors value = .ok d)
    (h' : verifiedDocument E directory schemaErrors' value' = .ok d')
    (hs : provenanceSignature F value = provenanceSignature F value') :
    Json.SameMembers PyNum.SameDouble d d' := by
  obtain ⟨text, view, kid, htext, hd, hview, hkid⟩ := verifiedDocument_eq_ok h
  obtain ⟨text', view', kid', htext', hd', hview', hkid'⟩ := verifiedDocument_eq_ok h'
  obtain ⟨prov, sig, header, payload, rest, bytes, hp, hg, hsplit, hdec, hexp⟩ :=
    verify_payload hkid
  obtain ⟨prov', sig', header', payload', rest', bytes', hp', hg', hsplit', hdec', hexp'⟩ :=
    verify_payload hkid'
  -- each document and its view are one text
  have hdv : Json.SameMembers PyNum.SameDouble d view :=
    Json.Same.members (Json.loads_same hooks_relate (parseMessage_eq_ok hd) (signedView_eq_ok hview))
  have hdv' : Json.SameMembers PyNum.SameDouble d' view' :=
    Json.Same.members (Json.loads_same hooks_relate (parseMessage_eq_ok hd')
      (signedView_eq_ok hview'))
  -- so both views carry the one signature, and with it the one payload
  have hsig : some sig = some sig' := by
    have hv := signatureText_congr hdv
    have hv' := signatureText_congr hdv'
    rw [Envelope.signatureText_eq_some.2 ⟨prov, hp, hg⟩] at hv
    rw [Envelope.signatureText_eq_some.2 ⟨prov', hp', hg'⟩] at hv'
    unfold provenanceSignature at hs
    rw [htext, htext', ok_bind, ok_bind, hd, hd'] at hs
    rw [← hv, ← hv']
    exact hs
  cases hsig
  rw [hsplit] at hsplit'
  cases hsplit'
  rw [hdec] at hdec'
  cases hdec'
  have hviews := same_of_signedDocument hp hp' hg hg'
    (sameDouble_of_payload (signedView_valid hview) (signedView_valid hview') hp hp' hexp hexp')
  have h₁ := (Json.same_obj hdv).trans (fun h h' => h.trans h') (Json.same_obj hviews)
  exact (h₁.trans (fun h h' => h.trans h'.symm) (Json.same_obj hdv').symm).members

end Lawful

/-! ## The fields of the same document -/

section Fields

variable {R : PyNum F → PyNum F → Prop} {v w : Doc F}

/-- A field of two documents that are the same is the same. -/
theorem field_same {d d' : Members (Doc F)} (h : Json.SameMembers R d d') {k : Text}
    (hv : field d k = .ok v) (hw : field d' k = .ok w) : Json.Same R v w := by
  unfold field at hv hw
  have hk := h k
  generalize d.get k = x at hk hv
  generalize d'.get k = y at hk hw
  cases hk with
  | none => cases hv
  | some hk => cases hv; cases hw; exact hk

/-- A field of two documents that are the same is the same, or in neither. -/
theorem fieldOrNone_same {d d' : Members (Doc F)} (h : Json.SameMembers R d d') (k : Text) :
    Json.Same R (fieldOrNone d k) (fieldOrNone d' k) := by
  unfold fieldOrNone
  have hk := h k
  generalize d.get k = x at hk ⊢
  generalize d'.get k = y at hk ⊢
  cases hk with
  | none => exact .null
  | some hk => exact hk

/-- Values that are the same are one text, or refused alike. -/
theorem requireCanonicalText_same (h : Json.Same R v w) (name : Text) (limit : ℕ) :
    requireCanonicalText L v name limit = requireCanonicalText L w name limit := by
  cases h <;> rfl

/-- Values that are the same are one instant, or refused alike. -/
theorem parseTimestamp_same (h : Json.Same R v w) (name : Text) :
    parseTimestamp L v name = parseTimestamp L w name := by
  cases h <;> rfl

/-- Values that are the same are one correlation id, or refused alike. -/
theorem normalizeCorrelationId_same (h : Json.Same R v w) :
    normalizeCorrelationId L v = normalizeCorrelationId L w := by
  cases h <;> rfl

/-- Values that are the same are one record label, or refused alike. -/
theorem normalizeRecordClassification_same (h : Json.Same R v w) :
    normalizeRecordClassification L v = normalizeRecordClassification L w := by
  cases h <;> rfl

/-- Values that are the same are mapped to one label. -/
theorem mapClassification_same [PyFloat F] (h : Json.Same R v w) {eventType a b : Text}
    (ha : mapClassification L v eventType = .ok a) (hb : mapClassification L w eventType = .ok b) :
    a = b := by
  cases h with
  | str t => exact Except.ok.inj (ha.symm.trans hb)
  | null | bool _ | num _ | arr _ _ | obj _ _ => cases ha

/-- The provenance of documents that are the same is the same. -/
theorem provenanceBlock_same (h : Json.Same R v w) {p q : Members (Doc F)}
    (hp : provenanceBlock v = .ok p) (hq : provenanceBlock w = .ok q) :
    Json.SameMembers R p q := by
  cases h with
  | obj hnone hsome =>
    cases hp
    cases hq
    exact Json.Same.members (.obj hnone hsome)
  | null | bool _ | num _ | str _ | arr _ _ => cases hp

/-- The primary resource, where there is one. -/
theorem primaryResource_eq_ok {bundle : Doc F} {resource : Members (Doc F)}
    (h : primaryResource bundle = .ok resource) :
    ∃ ms entry entries, bundle = .obj ms ∧
      Members.get (lit "entry") ms = some (.arr (.obj entry :: entries)) ∧
      Members.get (lit "resource") entry = some (.obj resource) := by
  unfold primaryResource at h
  split at h
  case h_2 => cases h
  next ms =>
  split at h
  case h_2 => cases h
  case h_3 => cases h
  next entry entries he =>
  split at h
  case h_2 => cases h
  next resource' hr =>
  split_ifs at h
  cases h
  exact ⟨ms, entry, entries, rfl, he, hr⟩

/-- The primary resource of bundles that are the same is the same. -/
theorem primaryResource_same (h : Json.Same R v w) {p q : Members (Doc F)}
    (hp : primaryResource v = .ok p) (hq : primaryResource w = .ok q) :
    Json.SameMembers R p q := by
  obtain ⟨ms, entry, entries, rfl, he, hr⟩ := primaryResource_eq_ok hp
  obtain ⟨ns, entry', entries', rfl, he', hr'⟩ := primaryResource_eq_ok hq
  have hentries := h.members (lit "entry")
  rw [he, he'] at hentries
  cases hentries with
  | some hentries =>
    have hfirst := (List.forall₂_cons.1 hentries.items).1
    have hresource := hfirst.members (lit "resource")
    rw [hr, hr'] at hresource
    cases hresource with
    | some hresource => exact hresource.members

end Fields

/-! ## The rows -/

section Rows

variable [PyFloat F] {R : PyNum F → PyNum F → Prop}

/-- Two internal events with the same fields. -/
structure InternalEvent.Same (R : PyNum F → PyNum F → Prop) (e e' : InternalEvent F) : Prop where
  eventId : e.eventId = e'.eventId
  eventType : e.eventType = e'.eventType
  producer : e.producer = e'.producer
  occurredAt : Json.Same R e.occurredAt e'.occurredAt
  recordedAt : Json.Same R e.recordedAt e'.recordedAt
  dataClassification : e.dataClassification = e'.dataClassification
  sourceSystem : e.sourceSystem = e'.sourceSystem
  sourceRecordReference : e.sourceRecordReference = e'.sourceRecordReference
  correlationId : Json.Same R e.correlationId e'.correlationId
  payload : Json.SameMembers R e.payload e'.payload
  recordClassification : Json.Same R e.recordClassification e'.recordClassification

omit [PyFloat F] in
/-- A checked text of the same documents. -/
theorem text_same {d d' : Members (Doc F)} (h : Json.SameMembers R d d') {k name t t' : Text}
    {limit : ℕ} (ht : ∃ v, field d k = .ok v ∧ requireCanonicalText L v name limit = .ok t)
    (ht' : ∃ v, field d' k = .ok v ∧ requireCanonicalText L v name limit = .ok t') : t = t' := by
  obtain ⟨v, hv, ht⟩ := ht
  obtain ⟨w, hw, ht'⟩ := ht'
  rw [requireCanonicalText_same (field_same h hv hw), ht'] at ht
  exact (Except.ok.inj ht).symm

/-- **The same documents project to the same internal events.** -/
theorem mapCanonicalEnvelope_same {d d' : Members (Doc F)} (h : Json.SameMembers R d d')
    {e e' : InternalEvent F} (he : mapCanonicalEnvelope L d = .ok e)
    (he' : mapCanonicalEnvelope L d' = .ok e') : e.Same R e' := by
  obtain ⟨resource, provenance, p⟩ := mapCanonicalEnvelope_eq_ok he
  obtain ⟨resource', provenance', p'⟩ := mapCanonicalEnvelope_eq_ok he'
  obtain ⟨v, hv, hr⟩ := p.fhir
  obtain ⟨v', hv', hr'⟩ := p'.fhir
  obtain ⟨w, hw, hp⟩ := p.block
  obtain ⟨w', hw', hp'⟩ := p'.block
  obtain ⟨u, hu, hc⟩ := p.classification
  obtain ⟨u', hu', hc'⟩ := p'.classification
  have hresource := primaryResource_same (field_same h hv hv') hr hr'
  have hprov := provenanceBlock_same (field_same h hw hw') hp hp'
  have htype := text_same h p.eventType p'.eventType
  have hoccurred := field_same h p.occurredAt p'.occurredAt
  exact {
    eventId := text_same h p.eventId p'.eventId
    eventType := htype
    producer := text_same h p.producer p'.producer
    occurredAt := hoccurred
    recordedAt := by rw [p.recordedAt, p'.recordedAt]; exact hoccurred
    dataClassification := mapClassification_same (field_same h hu hu') (htype ▸ hc) hc'
    sourceSystem := by
      rw [p.sourceSystem, p'.sourceSystem]
      exact text_same h p.producer p'.producer
    sourceRecordReference := text_same hprov p.ledgerCommitHash p'.ledgerCommitHash
    correlationId := by
      rw [p.correlationId, p'.correlationId]
      exact fieldOrNone_same h _
    payload := by
      rw [p.payload, p'.payload]
      exact hresource.set _ (Json.same_obj hprov)
    recordClassification := by
      rw [p.recordClassification, p'.recordClassification]
      exact fieldOrNone_same h _ }

/-- The text of a payload is its canonical JSON. -/
theorem payloadText_eq_ok {eventType t : Text} {payload : Members (Doc F)}
    (h : payloadText L eventType payload = .ok t) : canonicalJson (.obj payload) = .ok t := by
  obtain ⟨t', ht, h⟩ := bind_eq_ok.1 h
  have hrest : ∀ {u : Unit}, (do
      let encoded ← encodeUtf8 t'
      if maxPayloadJsonBytes < encoded.length then
        .error (.valueError (lit "payload exceeds 1048576 canonical JSON bytes"))
      else .ok t') = (.ok t : Except PyError Text) → t' = t := by
    intro _ h
    obtain ⟨encoded, -, h⟩ := bind_eq_ok.1 h
    split_ifs at h
    exact Except.ok.inj h
  split_ifs at h
  · obtain ⟨u, -, h⟩ := bind_eq_ok.1 h
    rw [← hrest (u := u) h]
    exact ht
  · rw [← hrest (u := ()) h]
    exact ht

/-- **The same internal events have the same rows**, but for the instant
of ingestion and the text of the payload. -/
theorem normalizeEvent_same {e e' : InternalEvent F} (h : e.Same R e') {now now' : ℤ}
    {row row' : Event} (hr : normalizeEvent L now e = .ok row)
    (hr' : normalizeEvent L now' e' = .ok row') :
    { row with ingestedAt := row'.ingestedAt, payloadJson := row'.payloadJson } = row' ∧
      canonicalJson (.obj e.payload) = .ok row.payloadJson ∧
      canonicalJson (.obj e'.payload) = .ok row'.payloadJson := by
  obtain ⟨occurredAt, h₁, hr⟩ := bind_eq_ok.1 hr
  obtain ⟨recordedAt, h₂, hr⟩ := bind_eq_ok.1 hr
  obtain ⟨occurredAt', k₁, hr'⟩ := bind_eq_ok.1 hr'
  obtain ⟨recordedAt', k₂, hr'⟩ := bind_eq_ok.1 hr'
  split_ifs at hr hr'
  obtain ⟨payload, h₃, hr⟩ := bind_eq_ok.1 hr
  obtain ⟨correlation, h₄, hr⟩ := bind_eq_ok.1 hr
  obtain ⟨label, h₅, hr⟩ := bind_eq_ok.1 hr
  obtain ⟨payload', k₃, hr'⟩ := bind_eq_ok.1 hr'
  obtain ⟨correlation', k₄, hr'⟩ := bind_eq_ok.1 hr'
  obtain ⟨label', k₅, hr'⟩ := bind_eq_ok.1 hr'
  rw [parseTimestamp_same h.occurredAt, k₁] at h₁
  rw [parseTimestamp_same h.recordedAt, k₂] at h₂
  rw [normalizeCorrelationId_same h.correlationId, k₄] at h₄
  rw [normalizeRecordClassification_same h.recordClassification, k₅] at h₅
  dsimp only at hr hr'
  rw [h.eventId, h.eventType, h.producer, h.sourceSystem, h.sourceRecordReference,
    h.dataClassification] at hr
  obtain ⟨a₁, ha₁, hr⟩ := bind_eq_ok.1 hr
  obtain ⟨a₂, ha₂, hr⟩ := bind_eq_ok.1 hr
  obtain ⟨a₃, ha₃, hr⟩ := bind_eq_ok.1 hr
  obtain ⟨a₄, ha₄, hr⟩ := bind_eq_ok.1 hr
  obtain ⟨a₅, ha₅, hr⟩ := bind_eq_ok.1 hr
  rw [ha₁, ok_bind, ha₂, ok_bind, ha₃, ok_bind, ha₄, ok_bind, ha₅, ok_bind] at hr'
  cases h₁
  cases h₂
  cases h₄
  cases h₅
  cases hr
  cases hr'
  exact ⟨rfl, payloadText_eq_ok h₃, payloadText_eq_ok k₃⟩

end Rows

/-! ## The retained payload -/

section Payload

variable [PyFloat F]

/-- A parsed value, whatever its numbers and strings. -/
abbrev Parsed (v : Doc F) : Prop := v.Valid (fun _ => True) Json.AnyText

variable {num : PyNum F → Prop}

omit [PyFloat F] in
/-- A member of a valid object is valid. -/
theorem valid_get {ms : Members (Doc F)} (h : (Json.obj ms).Valid num Json.AnyText) {k : Text}
    {v : Doc F} (hv : ms.get k = some v) : v.Valid num Json.AnyText :=
  (Json.validMembers_iff.1 h.2 _ (Members.mem_of_get hv)).2

omit [PyFloat F] in
/-- A field of a valid document is valid. -/
theorem valid_field {ms : Members (Doc F)} (h : (Json.obj ms).Valid num Json.AnyText) {k : Text}
    {v : Doc F} (hv : field ms k = .ok v) : v.Valid num Json.AnyText := by
  unfold field at hv
  split at hv
  · next w hw =>
    cases hv
    exact valid_get h hw
  · cases hv

omit [PyFloat F] in
/-- The primary resource of a valid bundle is valid. -/
theorem valid_primaryResource {bundle : Doc F} (h : bundle.Valid num Json.AnyText)
    {resource : Members (Doc F)} (hr : primaryResource bundle = .ok resource) :
    (Json.obj resource).Valid num Json.AnyText := by
  obtain ⟨ms, entry, entries, rfl, he, hr⟩ := primaryResource_eq_ok hr
  have hentries := Json.validItems_iff.1 (valid_get h he)
  exact valid_get (hentries _ List.mem_cons_self) hr

omit [PyFloat F] in
/-- A provenance block is the object that is there. -/
theorem provenanceBlock_eq_ok {v : Doc F} {provenance : Members (Doc F)}
    (h : provenanceBlock v = .ok provenance) : v = .obj provenance := by
  cases v with
  | obj ms => cases h; rfl
  | null | bool _ | num _ | str _ | arr _ => cases h

/-- The payload of a document holds what the document does. -/
theorem valid_payload {d : Members (Doc F)} (h : (Json.obj d).Valid num Json.AnyText)
    {e : InternalEvent F} (he : mapCanonicalEnvelope L d = .ok e) :
    (Json.obj e.payload).Valid num Json.AnyText := by
  obtain ⟨resource, provenance, p⟩ := mapCanonicalEnvelope_eq_ok he
  obtain ⟨fhir, hfhir, hresource⟩ := p.fhir
  obtain ⟨prov, hprov, hprovenance⟩ := p.block
  have hr := valid_primaryResource (valid_field h hfhir) hresource
  have hp := valid_field h hprov
  rw [provenanceBlock_eq_ok hprovenance] at hp
  rw [p.payload]
  refine ⟨hr.1.set _ _, Json.validMembers_iff.2 fun m hm => ?_⟩
  rcases Members.mem_set hm with hm | rfl
  · exact Json.validMembers_iff.1 hr.2 m hm
  · exact ⟨trivial, hp⟩

/-- A verified document was parsed from a message. -/
theorem parsed_verifiedDocument {E : Ed25519} {directory : Members E.PublicKey}
    {schemaErrors : Members (Doc F) → List Text} {value : Option Bytes} {d : Members (Doc F)}
    (h : verifiedDocument E directory schemaErrors value = .ok d) : Parsed (.obj d) := by
  obtain ⟨text, view, kid, -, hd, -, -⟩ := verifiedDocument_eq_ok h
  exact Json.loads_valid ⟨fun _ => trivial, fun _ => trivial⟩ (parseMessage_eq_ok hd)

/-- Payloads whose numbers are spelled alike are retained alike. -/
theorem canonicalJson_congr {v w : Doc F} (hv : Parsed v) (hw : Parsed w)
    (h : Json.Same Eq v w) : canonicalJson v = canonicalJson w :=
  Json.serialize_congr (.refl _) rfl (fun _ _ h => h) (fun _ _ h => by rw [h]) h hv hw 0

end Payload

/-! ## The signature covers the row -/

variable [PyFloat F] [LawfulFloat F]

/-- **The signature covers what is persisted**, up to the spelling of
numbers. Two accepted messages with one signature text have rows that
agree in every column but the instant of ingestion and the payload; the
payloads are the canonical texts of documents that are the same value
once every number is read as a double, and are one text where the numbers
are spelled alike. -/
theorem decodeEvent_signature {E : Ed25519} {directory : Members E.PublicKey}
    {schemaErrors : Members (Doc F) → List Text} {now₁ now₂ : ℤ} {m₁ m₂ : Bytes} {e₁ e₂ : Event}
    (h₁ : decodeEvent L E directory schemaErrors now₁ (some m₁) = .ok e₁)
    (h₂ : decodeEvent L E directory schemaErrors now₂ (some m₂) = .ok e₂)
    (hs : provenanceSignature F (some m₁) = provenanceSignature F (some m₂)) :
    { e₁ with ingestedAt := e₂.ingestedAt, payloadJson := e₂.payloadJson } = e₂ ∧
      ∃ p₁ p₂ : Members (Doc F), canonicalJson (.obj p₁) = .ok e₁.payloadJson ∧
        canonicalJson (.obj p₂) = .ok e₂.payloadJson ∧
        Json.Same PyNum.SameDouble (.obj p₁) (.obj p₂) ∧
        (Json.Same Eq (.obj p₁) (.obj p₂) → e₁.payloadJson = e₂.payloadJson) := by
  obtain ⟨d₁, hd₁, h₁⟩ := bind_eq_ok.1 h₁
  obtain ⟨i₁, hi₁, h₁⟩ := bind_eq_ok.1 h₁
  obtain ⟨d₂, hd₂, h₂⟩ := bind_eq_ok.1 h₂
  obtain ⟨i₂, hi₂, h₂⟩ := bind_eq_ok.1 h₂
  have hsame := mapCanonicalEnvelope_same (sameDocument hd₁ hd₂ hs) hi₁ hi₂
  obtain ⟨hrow, hp₁, hp₂⟩ := normalizeEvent_same hsame h₁ h₂
  refine ⟨hrow, _, _, hp₁, hp₂, Json.same_obj hsame.payload, fun heq => ?_⟩
  have hcongr := canonicalJson_congr (valid_payload (parsed_verifiedDocument hd₁) hi₁)
    (valid_payload (parsed_verifiedDocument hd₂) hi₂) heq
  rw [hp₁, hp₂] at hcongr
  exact Except.ok.inj hcongr

/-! ## The spelling of a number -/

/-- An envelope whose resource has a number. -/
def levelEnvelope (level : PyNum Decimal) : Members (Doc Decimal) :=
  [(lit "envelopeVersion", .str (lit "1.0")),
    (lit "eventId", .str (lit "5f6f2d5e-0b1c-4c68-9a3e-2f1f6a1f0c01")),
    (lit "eventType", .str (lit "ports.gate-scan.v1")),
    (lit "occurredAt", .str (lit "2026-03-01T08:00:00Z")),
    (lit "producer", .str (lit "port-gateway")),
    (lit "correlationId", .str (lit "corr-1")),
    (lit "fhir", .obj [(lit "resourceType", .str (lit "Bundle")), (lit "type", .str (lit "message")),
      (lit "entry", .arr [.obj [(lit "resource", .obj [(lit "level", .num level)])]])]),
    (lit "provenance", .obj [(lit "principalId", .str (lit "gate-7")),
      (lit "principalRole", .str (lit "operator")), (lit "ledgerCommitHash", .str (lit "c0ffee"))]),
    (lit "classification", .str (lit "INTERNAL"))]

/-- The bytes of an envelope, signed and serialized. -/
def signedBytes (envelope : Members (Doc Decimal)) : Bytes :=
  let signed := do
    let signed ← Envelope.signDocument Envelope.echo envelope () (lit "port-gateway-1")
    encodeUtf8 (← dumps {} (.obj signed))
  signed.toOption.getD []

/-- The decoding of a signed envelope. -/
def decodeSigned (now : ℤ) (message : Bytes) : Except PyError Event :=
  decodeEvent (F := Decimal) Library.ascii Envelope.echo [(lit "port-gateway-1", ())] (fun _ => [])
    now (some message)

/-- The envelope whose level is the integer one, and the one whose level is
the float one. -/
def levelMessages : Bytes × Bytes :=
  (signedBytes (levelEnvelope (.int 1)), signedBytes (levelEnvelope (.float (.fin false 1 0))))

/-- The two messages have one signature and two payloads. -/
theorem decode_levelMessages :
    (do
      let e₁ ← decodeSigned 0 levelMessages.1
      let e₂ ← decodeSigned 7 levelMessages.2
      return decide (provenanceSignature Decimal (some levelMessages.1) =
        provenanceSignature Decimal (some levelMessages.2) ∧ e₁.payloadJson ≠ e₂.payloadJson)) =
      .ok true := by
  decide +kernel

/-- One signature, two rows: the level `1` and the level `1.0` are one
number to the signature and two to the retained payload. -/
theorem decodeEvent_signature_spelling : ∃ e₁ e₂ : Event,
    decodeSigned 0 levelMessages.1 = .ok e₁ ∧ decodeSigned 7 levelMessages.2 = .ok e₂ ∧
      provenanceSignature Decimal (some levelMessages.1) =
        provenanceSignature Decimal (some levelMessages.2) ∧
      e₁.payloadJson ≠ e₂.payloadJson := by
  obtain ⟨e₁, h₁, h⟩ := bind_eq_ok.1 decode_levelMessages
  obtain ⟨e₂, h₂, h⟩ := bind_eq_ok.1 h
  exact ⟨e₁, e₂, h₁, h₂, of_decide_eq_true (Except.ok.inj h)⟩

/-- A level written `5` and one written `5.0` under one signature make two
rows. -/
theorem decodeEvent_signature_levels : ∃ e₁ e₂ : Event,
    decodeSigned 0 levelMessages.1 = .ok e₁ ∧ decodeSigned 7 levelMessages.2 = .ok e₂ ∧
      { e₁ with ingestedAt := e₂.ingestedAt, payloadJson := e₂.payloadJson } = e₂ := by
  obtain ⟨e₁, h₁, h⟩ := bind_eq_ok.1 decode_levelMessages
  obtain ⟨e₂, h₂, h⟩ := bind_eq_ok.1 h
  exact ⟨e₁, e₂, h₁, h₂,
    (decodeEvent_signature h₁ h₂ (of_decide_eq_true (Except.ok.inj h)).1).1⟩

end Ingest

end Lakehouse

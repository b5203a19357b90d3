import Lakehouse.Ingest.SignedRow
/-!
# The retained payload, read again

The layers above bronze parse the payload text of a row anew. A text that
`normalize_event` retains reads as the payload it was written from, its
members sorted: every key has its value, and every number is finite.
-/

namespace Lakehouse

namespace Ingest

variable {F : Type} [PyFloat F] {L : Library} {eventType t : Text} {payload : Members (Doc F)}

/-- The style `canonical_json` writes in. -/
abbrev canonicalStyle : Json.Style (PyNum F) PyError :=
  ({ ensureAscii := false, allowNan := false, sortKeys := true, compact := true } :
    DumpsOptions).style

/-- A value as its canonical text reads: members sorted at every level. -/
def reread (v : Doc F) : Doc F := Json.arranged canonicalStyle id v

/-- The members of an object, so read. -/
def rereadMembers (ms : Members (Doc F)) : Members (Doc F) :=
  Members.mapValues reread ((canonicalStyle (F := F)).arrange ms)

/-- An object is read again member by member. -/
theorem reread_obj (ms : Members (Doc F)) : reread (.obj ms) = .obj (rereadMembers ms) :=
  Json.arranged_obj canonicalStyle id ms

/-- A text is read again as itself. -/
@[simp] theorem reread_str (s : Text) : reread (.str s : Doc F) = .str s := by
  rw [reread, Json.arranged]

/-- Null is read again as itself. -/
@[simp] theorem reread_null : reread (.null : Doc F) = .null := by
  rw [reread, Json.arranged]

/-- The members read again. -/
theorem get_rereadMembers {ms : Members (Doc F)} (h : ms.Distinct) (k : Text) :
    (rereadMembers ms).get k = (ms.get k).map reread := by
  rw [rereadMembers, Members.get_mapValues, Json.get_arrange _ h]

/-- A retained payload has no surrogate. -/
theorem isScalar_payloadText (h : payloadText L eventType payload = .ok t) : t.IsScalar := by
  obtain ⟨u, -, h⟩ := bind_eq_ok.1 h
  have hrest : (do
      let encoded ← encodeUtf8 u
      if maxPayloadJsonBytes < encoded.length then
        .error (.valueError (lit "payload exceeds 1048576 canonical JSON bytes"))
      else .ok u) = (.ok t : Except PyError Text) → t.IsScalar := by
    intro h
    obtain ⟨encoded, hencoded, h⟩ := bind_eq_ok.1 h
    split_ifs at h
    cases h
    exact (Text.utf8_eq_some.1 (encodeUtf8_eq_ok.1 hencoded)).1
  split_ifs at h
  · obtain ⟨_, -, h⟩ := bind_eq_ok.1 h
    exact hrest h
  · exact hrest h

/-- **What is retained of a parsed payload is finite**, and its strings are
texts. -/
theorem valid_of_payloadText (hp : Parsed (.obj payload))
    (h : payloadText L eventType payload = .ok t) :
    (Json.obj payload).Valid PyNum.Finite Text.IsScalar := by
  refine Json.valid_of_serialize (fun h => Json.isScalar_of_quote h) ?_ _ hp
    (payloadText_eq_ok h) (isScalar_payloadText h)
  intro n u _ hn
  cases n with
  | int n => trivial
  | float x =>
    change PyFloat.isFinite x = true
    by_contra hfin
    change (if PyFloat.isFinite x then _ else _) = _ at hn
    rw [if_neg hfin] at hn
    cases hn

/-- **`json.loads` of a retained payload** is the payload. -/
theorem loads_payloadText [LawfulFloat F] (hp : Parsed (.obj payload))
    (h : payloadText L eventType payload = .ok t) :
    Json.loads defaultHooks t = .ok (.obj (rereadMembers payload)) := by
  rw [Json.loads_serialize (dumps_readBy_default _) (valid_of_payloadText hp h)
    (payloadText_eq_ok h), ← reread_obj]
  rfl

/-! ## The row of an event -/

/-- **What a row keeps of its internal event.** -/
structure Normalizes (L : Library) (event : InternalEvent F) (e : Event) : Prop where
  eventId : e.eventId = event.eventId
  eventType : e.eventType = event.eventType
  sourceRecordReference : e.sourceRecordReference = event.sourceRecordReference
  payload : payloadText L event.eventType event.payload = .ok e.payloadJson

/-- **A normalized event keeps what it was made of.** -/
theorem normalizeEvent_eq_ok {now : ℤ} {event : InternalEvent F} {e : Event}
    (h : normalizeEvent L now event = .ok e) : Normalizes L event e := by
  obtain ⟨_, -, h⟩ := bind_eq_ok.1 h
  obtain ⟨_, -, h⟩ := bind_eq_ok.1 h
  split_ifs at h
  obtain ⟨_, hpayload, h⟩ := bind_eq_ok.1 h
  obtain ⟨_, -, h⟩ := bind_eq_ok.1 h
  obtain ⟨_, -, h⟩ := bind_eq_ok.1 h
  obtain ⟨_, hid, h⟩ := bind_eq_ok.1 h
  obtain ⟨_, htype, h⟩ := bind_eq_ok.1 h
  obtain ⟨_, -, h⟩ := bind_eq_ok.1 h
  obtain ⟨_, -, h⟩ := bind_eq_ok.1 h
  obtain ⟨_, hreference, h⟩ := bind_eq_ok.1 h
  cases h
  exact ⟨(Json.str.inj (requireCanonicalText_eq_ok L hid).1).symm,
    (Json.str.inj (requireCanonicalText_eq_ok L htype).1).symm,
    (Json.str.inj (requireCanonicalText_eq_ok L hreference).1).symm, hpayload⟩

/-- A decoded row, with the document it comes from. -/
theorem decodeEvent_eq_ok {E : Ed25519} {directory : Members E.PublicKey}
    {schemaErrors : Members (Doc F) → List Text} {now : ℤ} {value : Option Bytes} {e : Event}
    (h : decodeEvent L E directory schemaErrors now value = .ok e) :
    ∃ d event resource provenance, verifiedDocument E directory schemaErrors value = .ok d ∧
      Projects L d event resource provenance ∧ Parsed (.obj event.payload) ∧
      Normalizes L event e := by
  obtain ⟨d, hd, h⟩ := bind_eq_ok.1 h
  obtain ⟨event, hevent, h⟩ := bind_eq_ok.1 h
  obtain ⟨resource, provenance, hp⟩ := mapCanonicalEnvelope_eq_ok hevent
  exact ⟨d, event, resource, provenance, hd, hp,
    valid_payload (parsed_verifiedDocument hd) hevent, normalizeEvent_eq_ok h⟩

end Ingest

end Lakehouse

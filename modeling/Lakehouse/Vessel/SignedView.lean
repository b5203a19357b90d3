import Lakehouse.Ingest.SignedRow
import Lakehouse.Signing.Spellings
import Lakehouse.Vessel.Bronze
/-!
# Two signature steps

The event consumer verifies the message's own text read with every number
a float; the vessel consumer verifies the canonical text of the parsed
document, read so. Both views are the document up to how a double is
spelled, and a view that verifies has only finite floats, so the canonical
text exists where it is needed (`signatureSteps_iff`).
-/

namespace Lakehouse

/-! ## Values that are the same -/

namespace Members

variable {α : Type}

/-- Putting back what is there changes nothing. -/
theorem set_of_get {ms : Members α} (h : ms.Distinct) {key : Text} {v : α}
    (hv : ms.get key = some v) : ms.set key v = ms := by
  have hmem := mem_of_get hv
  rw [set, if_pos (List.mem_map_of_mem hmem)]
  conv_rhs => rw [← List.map_id ms]
  refine List.map_congr_left fun m hm => ?_
  split_ifs with hk
  · have hm' := (get_eq_some h).2 hm
    rw [hk, hv, Option.some.injEq] at hm'
    rw [hm', ← hk]
    rfl
  · rfl

end Members

namespace Json

variable {N M ε : Type} {R : N → M → Prop}

theorem SameMembers.without {ms : Members (Json N)} {ns : Members (Json M)}
    (h : SameMembers R ms ns) (key : Text) : SameMembers R (ms.without key) (ns.without key) := by
  intro k
  rw [Members.get_without, Members.get_without]
  by_cases hk : k = key
  · rw [if_pos hk, if_pos hk]
    exact .none
  · rw [if_neg hk, if_neg hk]
    exact h k

/-- What holds of one value holds of the same value, numbers apart. -/
theorem Same.valid {num : N → Prop} {num' : M → Prop} {text : Text → Prop}
    (hR : ∀ {m n}, R m n → num m → num' n) {v : Json N} {w : Json M} (h : Same R v w)
    (hv : v.Valid num text) (hw : w.Valid (fun _ => True) AnyText) : w.Valid num' text := by
  induction h with
  | null | bool _ => trivial
  | num h => exact hR h hv
  | str t => exact hv
  | @arr vs ws hlen _ ih =>
    refine validItems_iff.2 fun w hmem => ?_
    obtain ⟨i, rfl⟩ := List.get_of_mem hmem
    have hi : i.1 < vs.length := by rw [hlen]; exact i.2
    exact ih i.1 hi i.2 (validItems_iff.1 hv _ (List.get_mem ..)) (validItems_iff.1 hw _ hmem)
  | @obj ms ns hnone _ ih =>
    refine ⟨hw.1, validMembers_iff.2 fun m hmem => ?_⟩
    have hget := (Members.get_eq_some hw.1).2 hmem
    cases hg : Members.get m.1 ms with
    | none =>
      rw [(hnone m.1).1 hg] at hget
      cases hget
    | some v =>
      obtain ⟨htext, hvalid⟩ := validMembers_iff.1 hv.2 _ (Members.mem_of_get hg)
      exact ⟨htext, ih m.1 v m.2 hg hget hvalid (validMembers_iff.1 hw.2 m hmem).2⟩

/-- A value and what it reads back as are the same. -/
theorem same_arranged {S : Style N ε} {g : N → M} (hg : ∀ n, R n (g n)) {num : N → Prop}
    {text : Text → Prop} {v : Json N} (hv : v.Valid num text) : Same R v (arranged S g v) := by
  induction v using induct with
  | null => exact .null
  | bool b => exact .bool b
  | num n => exact .num (hg n)
  | str t => exact .str t
  | arr vs ih =>
    rw [arranged, arrangedItems_eq]
    refine same_arr ?_
    rw [List.forall₂_map_right_iff, List.forall₂_same]
    exact fun v hmem => ih v hmem (validItems_iff.1 hv v hmem)
  | obj ms ih =>
    rw [arranged_obj]
    refine same_obj fun k => ?_
    rw [Members.get_mapValues, get_arrange S hv.1]
    cases hk : Members.get k ms with
    | none => exact .none
    | some v =>
      have hmem := Members.mem_of_get hk
      exact .some (ih _ hmem (validMembers_iff.1 hv.2 _ hmem).2)

end Json

/-! ## One verdict on the same view -/

namespace Envelope

variable {F : Type} [PyFloat F] [LawfulFloat F] {E : Ed25519} {directory : Members E.PublicKey}
  {view view' : Members (Doc F)} {kid : Text}

/-- Every number is a float. -/
abbrev IsFloat (n : PyNum F) : Prop := ∃ x, n = .float x

theorem sameDouble_isDouble {m n : PyNum F} (h : PyNum.SameDouble m n) (hm : m.IsDouble) :
    IsFloat n → n.IsDouble := by
  rintro ⟨y, rfl⟩
  obtain ⟨x, hmx, hx, -⟩ := hm.widen
  rcases h with h | ⟨-, hy⟩
  · rw [hmx, PyNum.widen, PyNum.float.injEq] at h
    exact h ▸ hx
  · exact hy.1

theorem sameDouble_val {m n : PyNum F} (hm : IsFloat m) (hn : IsFloat n)
    (h : PyNum.SameDouble m n) : m.val = n.val := by
  obtain ⟨x, rfl⟩ := hm
  obtain ⟨y, rfl⟩ := hn
  rcases h with h | ⟨hx, hy⟩
  · rw [PyNum.widen, PyNum.widen] at h
    rw [h]
  · exact hx.2.trans hy.2.symm

/-- The payload of a view that is the same but for the spelling of doubles. -/
theorem expectedPayload_congr {provenance provenance' : Members (Doc F)} {bytes : Bytes}
    (h : Json.SameMembers PyNum.SameDouble view view')
    (hp : Json.SameMembers PyNum.SameDouble provenance provenance')
    (hv : (Json.obj view).Valid IsFloat Json.AnyText)
    (hv' : (Json.obj view').Valid IsFloat Json.AnyText)
    (hprov : view.get (lit "provenance") = some (.obj provenance))
    (hprov' : view'.get (lit "provenance") = some (.obj provenance'))
    (hb : expectedPayload view provenance = .ok bytes) :
    expectedPayload view' provenance' = .ok bytes := by
  obtain ⟨t, ht, hencode, hvalid⟩ := Ingest.signedDocument_valid hv hprov hb
  have hfloats := valid_signedDocument hv hprov
  have hfloats' := valid_signedDocument hv' hprov'
  have hsame : Json.Same PyNum.SameDouble (signedDocument view provenance)
      (signedDocument view' provenance') :=
    Json.same_obj ((h.without _).set _ (Json.same_obj (hp.without _)))
  have hdoubles : ∀ {m n : PyNum F}, IsFloat m → IsFloat n → PyNum.SameDouble m n →
      m.IsDouble → n.IsDouble := fun _ hn hmn hm => sameDouble_isDouble hmn hm hn
  have hsame' : Json.Same (fun m n : PyNum F => m.IsDouble → n.IsDouble) (signedDocument view provenance)
      (signedDocument view' provenance') := hsame.mono hdoubles hfloats hfloats'
  have hvalid' := hsame'.valid (fun h => h) hvalid
    (Json.Valid.mono (fun _ _ => trivial) (fun _ => id) hfloats')
  have hvals : ∀ {m n : PyNum F}, IsFloat m → IsFloat n → PyNum.SameDouble m n → m.val = n.val :=
    sameDouble_val
  have hvalue : Jcs.SameValue (signedDocument view provenance) (signedDocument view' provenance') :=
    hsame.mono hvals hfloats hfloats'
  have hcanonical : Jcs.canonicalize (signedDocument view' provenance') = .ok t := by
    rw [← Jcs.canonicalize_congr hvalid hvalid' hvalue]
    exact ht
  rw [expectedPayload, hcanonical, ok_bind]
  exact hencode

/-- **Views that are the same but for the spelling of doubles verify alike.** -/
theorem verify_congr (h : Json.SameMembers PyNum.SameDouble view view')
    (hv : (Json.obj view).Valid IsFloat Json.AnyText)
    (hv' : (Json.obj view').Valid IsFloat Json.AnyText)
    (hverify : verify E directory view = .ok kid) : verify E directory view' = .ok kid := by
  obtain @⟨provenance, _, signature, _, _, _, _, _, _, _, hprov, hsig, hsplit, hh, hp, hs, hheader,
    hkid, hdirectory, hexpected, hsigned⟩ := verify_eq_ok.1 hverify
  obtain ⟨provenance', hprov', hpp⟩ : ∃ provenance', view'.get (lit "provenance") = some (.obj provenance') ∧
      Json.SameMembers PyNum.SameDouble provenance provenance' := by
    have hk := h (lit "provenance")
    rw [hprov] at hk
    generalize view'.get (lit "provenance") = o at hk ⊢
    cases hk with
    | some hk =>
      cases hk with
      | obj hnone hsome => exact ⟨_, rfl, Json.Same.members (.obj hnone hsome)⟩
  have hsig' : Members.get (lit "signature") provenance' = some (.str signature) := by
    have hk := hpp (lit "signature")
    rw [hsig] at hk
    generalize Members.get (lit "signature") provenance' = o at hk ⊢
    cases hk with
    | some hk =>
      cases hk with
      | str t => rfl
  exact verify_eq_ok.2 (.intro hprov' hsig' hsplit hh hp hs hheader hkid hdirectory
    (expectedPayload_congr h hpp hv hv' hprov hprov' hexpected) hsigned)

omit [LawfulFloat F] in
/-- A view that verifies has finite floats alone. -/
theorem finite_of_verify (hv : (Json.obj view).Valid IsFloat Json.AnyText)
    (hverify : verify E directory view = .ok kid) :
    (Json.obj view).Valid PyNum.IsDouble Json.AnyText := by
  obtain @⟨provenance, _, signature, _, _, _, _, _, _, _, hprov, hsig, _, _, _, _, _, _, _, hexpected, _⟩ :=
    verify_eq_ok.1 hverify
  obtain ⟨t, -, -, hvalid⟩ := Ingest.signedDocument_valid hv hprov hexpected
  have hdistinct := (Json.validMembers_iff.1 hv.2 _ (Members.mem_of_get hprov)).2.1
  have hsignature : (Json.str signature : Doc F).Valid PyNum.IsDouble Json.AnyText := trivial
  have hset := valid_of_signedDocument hv.1 hdistinct
    (Json.Valid.mono (fun _ => id) (fun _ _ => trivial) hvalid) trivial hsignature
  rwa [Members.set_of_get hdistinct hsig, Members.set_of_get hv.1 hprov] at hset

end Envelope

/-! ## The two views of a message -/

namespace Vessel

variable {F : Type} [PyFloat F]

/-- What both consumers ask of a message before its signature: its size, its
encoding, a JSON object and the schema. -/
def checkedDocument (schemaErrors : Members (Doc F) → List Text) (value : Option Bytes) :
    Except PyError (Text × Members (Doc F)) := do
  let text ← Ingest.messageText value
  let document ← Ingest.parseMessage text
  Ingest.checkSchema schemaErrors document
  return (text, document)

/-- The signature step of `decode_event`: the text read again, integers
widened. -/
def eventSignatureStep (E : Ed25519) (directory : Members E.PublicKey) (text : Text) :
    Except PyError Text := do
  let view ← Ingest.signedView (F := F) text
  Envelope.verify E directory view

/-- The signature step of `decode_vessel_observation`: the canonical text of
the document read again, integers widened. -/
def vesselSignatureStep (E : Ed25519) (directory : Members E.PublicKey) (document : Members (Doc F)) :
    Except PyError Text := do
  let view ← signedViewOf document
  Envelope.verify E directory view

/-- **`decode_message`** of the vessel consumer. -/
def decodeMessage [PyMath F] (L : Library) (E : Ed25519) (directory : Members E.PublicKey)
    (schemaErrors : Members (Doc F) → List Text) (pyais : Pyais F) (now : ℤ) (value : Option Bytes) :
    Except PyError (Observation F) := do
  let text ← Ingest.messageText value
  let document ← Ingest.parseMessage text
  decodeVesselObservation L E directory schemaErrors pyais now document

section Steps

variable {E : Ed25519} {directory : Members E.PublicKey} {schemaErrors : Members (Doc F) → List Text}
  {value : Option Bytes} {text : Text} {document : Members (Doc F)}

theorem checkedDocument_eq_ok (h : checkedDocument schemaErrors value = .ok (text, document)) :
    Ingest.messageText value = .ok text ∧ Ingest.parseMessage text = .ok document ∧
      schemaErrors document = [] := by
  obtain ⟨text', ht, h⟩ := bind_eq_ok.1 h
  obtain ⟨document', hd, h⟩ := bind_eq_ok.1 h
  obtain ⟨u, hs, h⟩ := bind_eq_ok.1 h
  cases h
  refine ⟨ht, hd, ?_⟩
  by_contra hne
  rw [Ingest.checkSchema, if_neg hne] at hs
  cases hs

/-- A verified document passed the common checks and the signature step. -/
theorem checked_of_verified (h : Ingest.verifiedDocument E directory schemaErrors value = .ok document) :
    ∃ text kid, checkedDocument schemaErrors value = .ok (text, document) ∧
      eventSignatureStep (F := F) E directory text = .ok kid := by
  obtain ⟨text, ht, h⟩ := bind_eq_ok.1 h
  obtain ⟨d, hd, h⟩ := bind_eq_ok.1 h
  obtain ⟨u, hs, h⟩ := bind_eq_ok.1 h
  obtain ⟨view, hview, h⟩ := bind_eq_ok.1 h
  obtain ⟨kid, hkid, h⟩ := bind_eq_ok.1 h
  cases h
  refine ⟨text, kid, ?_, ?_⟩
  · rw [checkedDocument, ht, ok_bind, hd, ok_bind, hs]
    rfl
  · rw [eventSignatureStep, hview, ok_bind, hkid]

/-- Past the common checks the event consumer goes on where its signature
step does. -/
theorem verifiedDocument_of_checked (h : checkedDocument schemaErrors value = .ok (text, document)) :
    Ingest.verifiedDocument E directory schemaErrors value =
      (do let _ ← eventSignatureStep (F := F) E directory text; return document) := by
  obtain ⟨ht, hd, hs⟩ := checkedDocument_eq_ok h
  rw [Ingest.verifiedDocument, ht, ok_bind, hd, ok_bind, Ingest.checkSchema, if_pos hs, ok_bind,
    eventSignatureStep]
  cases Ingest.signedView (F := F) text
  all_goals rfl

/-- Past the common checks the vessel consumer goes on where its signature
step does. -/
theorem decodeMessage_of_checked [PyMath F] (L : Library) (pyais : Pyais F) (now : ℤ)
    (h : checkedDocument schemaErrors value = .ok (text, document)) :
    decodeMessage L E directory schemaErrors pyais now value = (do
      let _ ← vesselSignatureStep E directory document
      let event ← observationEvent L document
      let payload ← decodeVesselPayload L pyais (event.payload.without (lit "provenance"))
      observationRow L now event payload) := by
  obtain ⟨ht, hd, hs⟩ := checkedDocument_eq_ok h
  rw [decodeMessage, ht, ok_bind, hd, ok_bind, decodeVesselObservation, checkVesselSchema, if_pos hs,
    ok_bind, vesselSignatureStep]
  cases signedViewOf document
  all_goals rfl

end Steps

/-! ## The numbers of a document -/

section Numbers

/-- An integer `str` writes. -/
def Written : PyNum F → Prop
  | .int n => (Text.ofNat n.natAbs).length ≤ maxStrDigits
  | .float _ => True

omit [PyFloat F] in
/-- An integer of few digits is written with few. -/
theorem written_of_parseInt {l : Numeral} (hl : l.Wf) {n : PyNum F} (h : parseInt l = .ok n) :
    Written n := by
  unfold parseInt at h
  split_ifs at h with hlen
  cases h
  have hdigits : Numeral.Digits l.int := by
    rcases hl.int with h0 | h0
    · rw [h0]
      decide
    · exact h0.1
  have habs : l.intValue.natAbs = digitsValue l.int := by
    unfold Numeral.intValue
    split_ifs
    · rw [Int.natAbs_neg, Int.natAbs_natCast]
    · rw [Int.natAbs_natCast]
  change (Text.ofNat l.intValue.natAbs).length ≤ maxStrDigits
  rw [habs]
  exact (Text.length_ofNat_le (List.length_pos_of_ne_nil hdigits.1) (digitsValue_lt hdigits.2)).trans
    (not_lt.1 hlen)

variable [LawfulFloat F]

/-- **The second parse accepts what the first does**: every numeral is read
as one double, and the integers are ones that are written. -/
theorem written_covered : (rejecting (defaultHooks (F := F))).Covered (rejecting floatHooks)
    (fun m n => PyNum.SameDouble m n ∧ Written m) := by
  refine rejecting_covered (hooks_covered.mono fun m n h => ⟨h.sameDouble, ?_⟩)
  obtain ⟨l, hl, -, hm, -⟩ | ⟨x, rfl, -⟩ := h
  · exact written_of_parseInt hl hm
  · trivial

/-- A number and the float the canonical text is read as. -/
theorem sameDouble_floatView (n : PyNum F) : PyNum.SameDouble n (floatView n) := by
  cases n with
  | int n =>
    have h := PyNum.sameDouble_ofNumeral (F := F) (Numeral.ofInt_wf n) rfl
    rwa [Numeral.ofInt_intValue] at h
  | float x => exact .inl rfl

/-- What is one double with a finite float is finite. -/
theorem finite_of_sameDouble {m n : PyNum F} (h : PyNum.SameDouble m n) (hm : m.IsDouble) :
    n.Finite := by
  cases n with
  | int n => trivial
  | float y => exact Envelope.sameDouble_isDouble h hm ⟨y, rfl⟩

/-- The style of the canonical text, where strings are written as they are. -/
theorem canonicalJson_readBy :
    (DumpsOptions.style (F := F)
      { ensureAscii := false, allowNan := false, sortKeys := true, compact := true }).ReadBy
        (rejecting floatHooks) PyNum.Finite Json.AnyText floatView :=
  { dumps_readBy _ (fun _ _ => rfl) (fun _ _ _ => rfl) with
    string := fun _ rest => Json.scanString_quote_of (fun h => absurd h Bool.false_ne_true) rest }

end Numbers

/-! ## One signature -/

variable [LawfulFloat F] {E : Ed25519} {directory : Members E.PublicKey} {text : Text}
  {document view : Members (Doc F)}

/-- **The view of the text**: what the event consumer verifies is the parsed
document, whose integers are ones that are written. -/
theorem signedView_of_parse (hd : Ingest.parseMessage text = .ok document) :
    (Json.obj document).Valid Written Json.AnyText ∧
      ∃ view, Ingest.signedView text = .ok view ∧
        Json.SameMembers PyNum.SameDouble document view := by
  have hload := Ingest.parseMessage_eq_ok hd
  obtain ⟨r, hr, hfst, hsnd⟩ := Json.loads_paired written_covered hload
  have hsame := Json.loads_same hooks_relate hload hsnd
  refine ⟨?_, ?_⟩
  · rw [← hfst, Json.valid_map_iff]
    exact Json.Valid.mono (fun _ h => h.2) (fun _ => id) hr
  · generalize r.map Prod.snd = w at hsnd hsame
    cases hsame with
    | obj hnone hsome =>
      refine ⟨_, ?_, Json.Same.members (.obj hnone hsome)⟩
      rw [Ingest.signedView, hsnd]
      rfl

/-- **The view of the canonical text**: where the document has one, what the
vessel consumer verifies is the document too. -/
theorem signedViewOf_of_finite (hw : (Json.obj document).Valid Written Json.AnyText)
    (hf : (Json.obj document).Valid PyNum.Finite Json.AnyText) :
    ∃ view, signedViewOf document = .ok view ∧
      Json.SameMembers PyNum.SameDouble document view := by
  have hnumber : ∀ n : PyNum F, Written n ∧ n.Finite → ∃ t, dumpsNumber false n = .ok t := by
    rintro (n | x) ⟨hn, hx⟩
    · exact ⟨Text.ofInt n, if_neg (not_lt.2 hn)⟩
    · exact ⟨PyFloat.repr x, if_pos hx⟩
  obtain ⟨canonical, hc⟩ := Json.serialize_isOk (S := DumpsOptions.style (F := F)
    { ensureAscii := false, allowNan := false, sortKeys := true, compact := true }) hnumber
    (Json.obj document) (hw.and hf) 0
  have hload := Json.loads_serialize canonicalJson_readBy hf hc
  have hsame := Json.same_arranged (S := DumpsOptions.style (F := F)
    { ensureAscii := false, allowNan := false, sortKeys := true, compact := true })
    sameDouble_floatView hf
  generalize Json.arranged _ floatView (Json.obj document) = w at hload hsame
  cases hsame with
  | obj hnone hsome =>
    refine ⟨_, ?_, Json.Same.members (.obj hnone hsome)⟩
    rw [signedViewOf, canonicalJson, dumps, hc, ok_bind, Ingest.signedView, hload]
    rfl

omit [LawfulFloat F] in
/-- A document with a canonical text has finite floats alone. -/
theorem finite_of_canonicalJson {canonical : Text}
    (hw : (Json.obj document).Valid Written Json.AnyText)
    (hc : canonicalJson (.obj document) = .ok canonical) :
    (Json.obj document).Valid PyNum.Finite Json.AnyText := by
  refine Json.Valid.mono ?_ (fun _ => id) (hw.isOk hc)
  rintro (n | x) ⟨t, ht⟩
  · trivial
  · change PyFloat.isFinite x = true
    by_contra hx
    change (if PyFloat.isFinite x then _ else _) = _ at ht
    rw [if_neg hx] at ht
    cases ht

/-- The two steps on a message and the document it is parsed to. -/
theorem steps_iff_of_parse (hd : Ingest.parseMessage text = .ok document) (kid : Text) :
    eventSignatureStep (F := F) E directory text = .ok kid ↔
      vesselSignatureStep E directory document = .ok kid := by
  obtain ⟨hw, view, hview, hsame⟩ := signedView_of_parse hd
  have hfloats := Ingest.signedView_valid hview
  rw [eventSignatureStep, hview, ok_bind, vesselSignatureStep]
  constructor
  · intro hverify
    -- a view that verifies is finite, so the canonical text exists
    have hdouble := Envelope.finite_of_verify hfloats hverify
    have hback := (Json.same_obj hsame).symm
    have hfinite : (Json.obj document).Valid PyNum.Finite Json.AnyText :=
      hback.valid (fun h hm => finite_of_sameDouble h.symm hm) hdouble
        (Json.Valid.mono (fun _ _ => trivial) (fun _ => id) hw)
    obtain ⟨view', hview', hsame'⟩ := signedViewOf_of_finite hw hfinite
    rw [hview', ok_bind]
    obtain ⟨canonical, -, hload⟩ := bind_eq_ok.1 hview'
    have hviews := ((Json.same_obj hsame).symm.trans (fun h h' => h.symm.trans h')
      (Json.same_obj hsame')).members
    exact Envelope.verify_congr hviews hfloats (Ingest.signedView_valid hload) hverify
  · intro h
    obtain ⟨view', hview', hverify⟩ := bind_eq_ok.1 h
    obtain ⟨canonical, hcanonical, hload⟩ := bind_eq_ok.1 hview'
    obtain ⟨view'', hview'', hsame'⟩ :=
      signedViewOf_of_finite hw (finite_of_canonicalJson hw hcanonical)
    rw [hview', Except.ok.injEq] at hview''
    subst hview''
    have hviews := ((Json.same_obj hsame').symm.trans (fun h h' => h.symm.trans h')
      (Json.same_obj hsame)).members
    exact Envelope.verify_congr hviews (Ingest.signedView_valid hload) hfloats hverify

/-- **Both consumers verify the same thing**: a document that passes the
common checks is accepted by one signature step exactly where it is by the
other, under the same key. -/
theorem signatureSteps_iff {schemaErrors : Members (Doc F) → List Text} {value : Option Bytes}
    (h : checkedDocument schemaErrors value = .ok (text, document)) (kid : Text) :
    eventSignatureStep (F := F) E directory text = .ok kid ↔
      vesselSignatureStep E directory document = .ok kid := by
  obtain ⟨-, hd, -⟩ := checkedDocument_eq_ok h
  exact steps_iff_of_parse hd kid

/-- The signed message of the integer level passes both steps. -/
theorem signatureSteps_iff_level : ∃ (text : Text) (document : Members (Doc Decimal)) (kid : Text),
    checkedDocument (fun _ => []) (some Ingest.levelMessages.1) = .ok (text, document) ∧
      eventSignatureStep (F := Decimal) Envelope.echo [(lit "port-gateway-1", ())] text = .ok kid ∧
      vesselSignatureStep Envelope.echo [(lit "port-gateway-1", ())] document = .ok kid := by
  obtain ⟨event, h, -⟩ := bind_eq_ok.1 Ingest.decode_levelMessages
  obtain ⟨document, h, -⟩ := bind_eq_ok.1 h
  obtain ⟨text, view, kid, ht, hd, hview, hkid⟩ := Ingest.verifiedDocument_eq_ok h
  have hchecked : checkedDocument (fun _ => []) (some Ingest.levelMessages.1) = .ok (text, document) := by
    rw [checkedDocument, ht, ok_bind, hd, ok_bind]
    rfl
  have hstep : eventSignatureStep (F := Decimal) Envelope.echo [(lit "port-gateway-1", ())] text =
      .ok kid := by
    rw [eventSignatureStep, hview, ok_bind, hkid]
  exact ⟨text, document, kid, hchecked, hstep, (signatureSteps_iff hchecked kid).1 hstep⟩

end Vessel

end Lakehouse

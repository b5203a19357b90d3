import Lakehouse.Signing.Envelope
/-!
# Sign, serialize, parse, verify

A signed document survives the JSON text: whichever way it is parsed, the
canonical form of what was signed is the same text, so the signature
verifies (`verify_signDocument`). What a previous signature was makes no
difference (`signDocument_congr`).
-/

namespace Lakehouse

namespace Envelope

/-! ## The segments -/

/-- A text that is not empty has bytes. -/
theorem ne_nil_of_utf8 {t : Text} {b : Bytes} (h : encodeUtf8 t = .ok b) (ht : t ≠ []) : b ≠ [] := by
  rintro rfl
  have hd := decodeUtf8_encodeUtf8 h
  have h₀ : decodeUtf8 [] = .ok [] := rfl
  rw [h₀] at hd
  exact ht (Except.ok.inj hd).symm

/-- A base64 segment has none but base64 characters. -/
theorem encode_chars (b : Bytes) : ∀ c ∈ Base64.encode b, (Base64.value c).isSome ∧ c ≠ 0x2E ∧
    Scalar c := by
  intro c hc
  obtain ⟨n, hn, rfl⟩ := Base64.encode_mem b c hc
  have hv := Base64.value_digit hn
  refine ⟨by rw [hv]; rfl, fun h => ?_, ?_⟩
  · rw [h] at hv
    cases hv
  · unfold Scalar Base64.digit
    split_ifs <;> omega

/-- Bytes are decoded from their segment. -/
theorem decodeBase64url_encode {b : Bytes} (hb : b ≠ []) (what : Text) :
    decodeBase64url (Base64.encode b) what = .ok b := by
  have hchars : ¬(Base64.encode b = [] ∨ ¬∀ c ∈ Base64.encode b, (Base64.value c).isSome) := by
    rw [not_or, not_not]
    exact ⟨Base64.encode_ne_nil hb, fun c hc => (encode_chars b c hc).1⟩
  rw [decodeBase64url, if_neg hchars, Base64.decode_encode]

/-- A compact signature splits into its three segments. -/
theorem splitOn_signature (a b c : Bytes) :
    Text.splitOn 0x2E (Base64.encode a ++ 0x2E :: Base64.encode b ++ 0x2E :: Base64.encode c) =
      [Base64.encode a, Base64.encode b, Base64.encode c] := by
  have hdot : ∀ x : Bytes, 0x2E ∉ Base64.encode x := fun x h => (encode_chars x _ h).2.1 rfl
  rw [List.append_assoc, List.cons_append, Text.splitOn_append (hdot a),
    Text.splitOn_append (hdot b), Text.splitOn_of_notMem (hdot c)]

section Header

variable {F : Type} [PyFloat F] [LawfulFloat F]

/-- A key id is ASCII. -/
theorem isScalar_of_kidPattern {kid : Text} (h : KidPattern kid) : kid.IsScalar := by
  intro c hc
  have hk := h.2.2 c hc
  unfold isKidChar at hk
  simp only [Bool.or_eq_true, Bool.and_eq_true, decide_eq_true_eq, beq_iff_eq] at hk
  unfold Scalar
  omega

/-- The header a signature carries reads back. -/
theorem decodeHeader_protectedHeader {kid t : Text} {b : Bytes} (hk : KidPattern kid)
    (ht : dumps { compact := true } (.obj (protectedHeader (F := F) kid)) = .ok t)
    (hb : encodeUtf8 t = .ok b) : decodeHeader (F := F) b = .ok (protectedHeader kid) := by
  have hv : (Json.obj (protectedHeader (F := F) kid)).Valid PyNum.Finite Text.IsScalar :=
    ⟨(show ([lit "alg", lit "kid"] : List Text).Nodup by decide),
      ⟨(show (lit "alg").IsScalar by decide), (show (lit "EdDSA").IsScalar by decide)⟩,
      ⟨(show (lit "kid").IsScalar by decide), isScalar_of_kidPattern hk⟩, trivial⟩
  unfold decodeHeader
  rw [decodeUtf8_encodeUtf8 hb]
  dsimp only
  rw [(loads_dumps rfl hv ht).1]

omit [PyFloat F] [LawfulFloat F] in
/-- The header names the key id. -/
theorem headerKid_protectedHeader {kid : Text} (hk : KidPattern kid) :
    headerKid (protectedHeader (F := F) kid) = .ok kid := by
  have halg : Members.get (lit "alg") (protectedHeader (F := F) kid) = some (.str (lit "EdDSA")) :=
    rfl
  have hkid : Members.get (lit "kid") (protectedHeader (F := F) kid) = some (.str kid) := rfl
  unfold headerKid
  rw [halg]
  dsimp only
  rw [if_pos rfl, hkid]
  exact if_pos hk

end Header

/-! ## What is signed -/

section Signed

variable {F : Type}

/-- The signed part of a document whose `provenance` was replaced by one
that differs in its signature. -/
theorem signedDocument_set (document provenance : Members (Doc F)) (s : Doc F) :
    signedDocument (document.set (lit "provenance") (.obj (provenance.set (lit "signature") s)))
        (provenance.set (lit "signature") s) =
      signedDocument document provenance := by
  rw [signedDocument, signedDocument, Members.without_set, Members.without_set]

/-- The document that is signed commutes with a change of its numbers. -/
theorem signedDocument_map (g : PyNum F → PyNum F) (document provenance : Members (Doc F)) :
    signedDocument (document.mapValues (Json.map g)) (provenance.mapValues (Json.map g)) =
      (signedDocument document provenance).map g := by
  rw [signedDocument, signedDocument, Json.map, Json.mapMembers_eq, Members.mapValues_set,
    Members.mapValues_without, Json.map, Json.mapMembers_eq, Members.mapValues_without]

/-- The parts of a document with a provenance object. -/
theorem valid_signedDocument {num : PyNum F → Prop} {text : Text → Prop}
    {document provenance : Members (Doc F)} (hd : (Json.obj document).Valid num text)
    (hp : document.get (lit "provenance") = some (.obj provenance)) :
    (signedDocument document provenance).Valid num text := by
  have hall := Json.validMembers_iff.1 hd.2
  have hprov := hall _ (Members.mem_of_get hp)
  refine ⟨(hd.1.without _).set _ _, Json.validMembers_iff.2 fun m hm => ?_⟩
  rcases Members.mem_set hm with hm | rfl
  · exact hall m (List.mem_of_mem_filter hm)
  · refine ⟨hprov.1, hprov.2.1.without _, Json.validMembers_iff.2 fun n hn => ?_⟩
    exact Json.validMembers_iff.1 hprov.2.2 n (List.mem_of_mem_filter hn)

/-- A signed document, from its signed part and its signature. -/
theorem valid_of_signedDocument {num : PyNum F → Prop} {text : Text → Prop}
    {document provenance : Members (Doc F)} (hd : document.Distinct) (hpd : provenance.Distinct)
    (hv : (signedDocument document provenance).Valid num text) (hsig : text (lit "signature"))
    {s : Doc F} (hs : s.Valid num text) :
    (Json.obj (document.set (lit "provenance")
      (.obj (provenance.set (lit "signature") s)))).Valid num text := by
  have hall := Json.validMembers_iff.1 hv.2
  have hprov := hall (lit "provenance", .obj (provenance.without (lit "signature")))
    (Members.mem_of_get (by rw [Members.get_set, if_pos rfl]))
  refine ⟨hd.set _ _, Json.validMembers_iff.2 fun m hm => ?_⟩
  have hcases := Members.mem_set hm
  by_cases hk : m.1 = lit "provenance"
  · have hget := (Members.get_eq_some (hd.set _ _)).2 hm
    rw [hk, Members.get_set, if_pos rfl, Option.some.injEq] at hget
    refine ⟨hk ▸ hprov.1, ?_⟩
    rw [← hget]
    refine ⟨hpd.set _ _, Json.validMembers_iff.2 fun n hn => ?_⟩
    by_cases hn₀ : n.1 = lit "signature"
    · have hget' := (Members.get_eq_some (hpd.set _ _)).2 hn
      rw [hn₀, Members.get_set, if_pos rfl, Option.some.injEq] at hget'
      exact ⟨hn₀ ▸ hsig, hget' ▸ hs⟩
    · have hn' : n ∈ provenance.without (lit "signature") := by
        refine List.mem_filter.2 ⟨(Members.mem_set hn).resolve_right ?_, by simpa using hn₀⟩
        rintro rfl
        exact hn₀ rfl
      exact Json.validMembers_iff.1 hprov.2.2 n hn'
  · have hm' : m ∈ document.without (lit "provenance") := by
      refine List.mem_filter.2 ⟨hcases.resolve_right ?_, by simpa using hk⟩
      rintro rfl
      exact hk rfl
    refine hall m (Members.mem_of_get ?_)
    rw [Members.get_set, if_neg hk, Members.get_without, if_neg hk]
    exact (Members.get_eq_some hd).2 (List.mem_of_mem_filter hm')

end Signed

/-! ## Signing, then verifying -/

section SignVerify

variable {F : Type} [PyFloat F]

/-- A document signed is the document with its compact signature. -/
theorem signDocument_eq_ok {E : Ed25519} {document signed : Members (Doc F)}
    {privateKey : E.PrivateKey} {kid : Text}
    (h : signDocument E document privateKey kid = .ok signed) :
    ∃ provenance signature, document.get (lit "provenance") = some (.obj provenance) ∧
      compactSignature E document provenance privateKey kid = .ok signature ∧
      signed = document.set (lit "provenance")
        (.obj (Members.set provenance (lit "signature") (.str signature))) := by
  unfold signDocument at h
  cases hp : document.get (lit "provenance") with
  | none => rw [hp] at h; cases h
  | some v =>
    rw [hp] at h
    cases v with
    | obj provenance =>
      obtain ⟨signature, hs, h⟩ := bind_eq_ok.1 h
      cases h
      exact ⟨provenance, signature, rfl, hs, rfl⟩
    | _ => cases h

/-- The segments of a compact signature. -/
theorem compactSignature_eq_ok {E : Ed25519} {document provenance : Members (Doc F)}
    {privateKey : E.PrivateKey} {kid signature : Text}
    (h : compactSignature E document provenance privateKey kid = .ok signature) :
    ∃ headerText header payload,
      dumps { compact := true } (.obj (protectedHeader (F := F) kid)) = .ok headerText ∧
      encodeUtf8 headerText = .ok header ∧ expectedPayload document provenance = .ok payload ∧
      signature = Base64.encode header ++ 0x2E :: Base64.encode payload ++
        0x2E :: Base64.encode (E.sign privateKey
          (encodeAscii (Base64.encode header ++ 0x2E :: Base64.encode payload))) := by
  obtain ⟨headerText, ht, h⟩ := bind_eq_ok.1 h
  obtain ⟨header, hh, h⟩ := bind_eq_ok.1 h
  obtain ⟨payload, hp, h⟩ := bind_eq_ok.1 h
  cases h
  exact ⟨headerText, header, payload, ht, hh, hp, rfl⟩

/-- An object has a nonempty text. -/
theorem serialize_obj_ne_nil {N ε : Type} {S : Json.Style N ε} {d : ℕ} {ms : Members (Json N)}
    {t : Text} (h : (Json.obj ms).serialize S d = .ok t) : t ≠ [] := by
  rw [Json.serialize_obj] at h
  obtain ⟨parts, -, h⟩ := bind_eq_ok.1 h
  cases h
  cases parts with
  | nil => exact List.cons_ne_nil _ _
  | cons p ps => simp [Json.Style.enclose]

variable [LawfulFloat F]

/-- **What a signed document verifies as**, its numbers read one way or
another. -/
theorem verify_signed {E : Ed25519} (hE : E.Correct) {document provenance : Members (Doc F)}
    (hdoc : (Json.obj document).Valid PyNum.IsDouble Json.AnyText)
    (hprov : document.get (lit "provenance") = some (.obj provenance)) {privateKey : E.PrivateKey}
    {kid signature : Text} (hkid : KidPattern kid)
    (hs : compactSignature E document provenance privateKey kid = .ok signature)
    {g : PyNum F → PyNum F} (hg : ∀ n, n.IsDouble → (g n).IsDouble ∧ n.val = (g n).val)
    {directory : Members E.PublicKey} (hdir : directory.get kid = some (E.publicKey privateKey)) :
    verify E directory (Members.mapValues (Json.map g) (document.set (lit "provenance")
      (.obj (Members.set provenance (lit "signature") (.str signature))))) = .ok kid := by
  obtain ⟨headerText, header, payload, ht, hh, hp, rfl⟩ := compactSignature_eq_ok hs
  set signature := Base64.encode header ++ 0x2E :: Base64.encode payload ++
    0x2E :: Base64.encode (E.sign privateKey
      (encodeAscii (Base64.encode header ++ 0x2E :: Base64.encode payload))) with hsig
  set provenance' := Members.set provenance (lit "signature") (.str signature) with hprov'
  -- the canonical form does not see how the numbers were read
  have hvalid := valid_signedDocument hdoc hprov
  obtain ⟨canonical, hcan, hencode⟩ := bind_eq_ok.1 hp
  have hscalar : canonical.IsScalar := (Text.utf8_eq_some.1 (encodeUtf8_eq_ok.1 hencode)).1
  have hvalid' := Json.valid_of_serialize (fun h => Json.isScalar_of_quote h) (fun h _ => h) _ hvalid
    hcan hscalar
  have hpayload : expectedPayload (Members.mapValues (Json.map g)
      (document.set (lit "provenance") (.obj provenance')))
        (Members.mapValues (Json.map g) provenance') = .ok payload := by
    have hcan' : Jcs.canonicalize ((signedDocument document provenance).map g) = .ok canonical := by
      rw [← hcan]
      exact (Jcs.canonicalize_congr hvalid' (Json.Valid.map (fun n hn => (hg n hn).1) _ hvalid')
        (Json.same_map (R := fun m n : PyNum F => m.val = n.val) (fun n hn => (hg n hn).2) _ hvalid')).symm
    rw [expectedPayload, signedDocument_map, signedDocument_set, hcan', ok_bind]
    exact hencode
  have hne : header ≠ [] := ne_nil_of_utf8 hh (serialize_obj_ne_nil ht)
  have hne' : payload ≠ [] := ne_nil_of_utf8 hencode (serialize_obj_ne_nil hcan)
  have hne'' : E.sign privateKey
      (encodeAscii (Base64.encode header ++ 0x2E :: Base64.encode payload)) ≠ [] := fun h => by
    have hlen := hE.length_sign privateKey
      (encodeAscii (Base64.encode header ++ 0x2E :: Base64.encode payload))
    rw [h] at hlen
    cases hlen
  unfold verify
  rw [Members.get_mapValues, Members.get_set, if_pos rfl, Option.map_some, Json.map,
    Json.mapMembers_eq]
  dsimp only
  rw [Members.get_mapValues, hprov', Members.get_set, if_pos rfl, Option.map_some, Json.map,
    ← hprov']
  dsimp only
  rw [hsig, splitOn_signature]
  dsimp only
  rw [decodeBase64url_encode hne, ok_bind, decodeBase64url_encode hne', ok_bind,
    decodeBase64url_encode hne'', ok_bind, decodeHeader_protectedHeader hkid ht hh, ok_bind,
    headerKid_protectedHeader hkid, ok_bind, hdir]
  dsimp only
  rw [hpayload]
  dsimp only
  rw [if_neg (not_not.2 rfl), if_pos (hE.verify_sign _ _)]

/-- The number every parse of the program reads is the same number. -/
theorem floatView_spec (n : PyNum F) (hn : n.IsDouble) :
    (floatView n).IsDouble ∧ n.val = (floatView n).val := by
  cases n with
  | int n =>
    have h := Jcs.ofNumeral_ofInt (F := F) hn
    exact ⟨h.1, h.2.symm⟩
  | float x => exact ⟨hn, rfl⟩

omit [LawfulFloat F] in
/-- The signed copy of a document is made of scalar values. -/
theorem valid_signed {E : Ed25519} {document provenance : Members (Doc F)}
    (hdoc : (Json.obj document).Valid PyNum.IsDouble Json.AnyText)
    (hprov : document.get (lit "provenance") = some (.obj provenance)) {privateKey : E.PrivateKey}
    {kid signature : Text}
    (hs : compactSignature E document provenance privateKey kid = .ok signature) :
    (Json.obj (document.set (lit "provenance")
      (.obj (Members.set provenance (lit "signature") (.str signature))))).Valid
        PyNum.IsDouble Text.IsScalar := by
  obtain ⟨-, header, payload, -, -, hp, rfl⟩ := compactSignature_eq_ok hs
  obtain ⟨canonical, hcan, hencode⟩ := bind_eq_ok.1 hp
  have hscalar : canonical.IsScalar := (Text.utf8_eq_some.1 (encodeUtf8_eq_ok.1 hencode)).1
  have hvalid := Json.valid_of_serialize (fun h => Json.isScalar_of_quote h) (fun h _ => h) _
    (valid_signedDocument hdoc hprov) hcan hscalar
  have hprovDistinct : provenance.Distinct :=
    (Json.validMembers_iff.1 hdoc.2 _ (Members.mem_of_get hprov)).2.1
  have hdot : Scalar 0x2E := by decide
  refine valid_of_signedDocument hdoc.1 hprovDistinct hvalid (by decide) ?_
  change Text.IsScalar _
  rw [Text.isScalar_append, Text.isScalar_append, Text.isScalar_cons, Text.isScalar_cons]
  exact ⟨⟨fun c hc => (encode_chars _ c hc).2.2, hdot, fun c hc => (encode_chars _ c hc).2.2⟩, hdot,
    fun c hc => (encode_chars _ c hc).2.2⟩

omit [LawfulFloat F] in
/-- **A previous signature makes no difference**: documents that agree
but for it are signed alike, up to where the signature stands. -/
theorem signDocument_congr {E : Ed25519} {document document' provenance provenance' signed :
      Members (Doc F)} {privateKey : E.PrivateKey} {kid : Text}
    (hprov : document.get (lit "provenance") = some (.obj provenance))
    (hprov' : document'.get (lit "provenance") = some (.obj provenance'))
    (h : signedDocument document provenance = signedDocument document' provenance')
    (hs : signDocument E document privateKey kid = .ok signed) :
    ∃ signed', signDocument E document' privateKey kid = .ok signed' ∧
      Json.Same Eq (Json.obj signed) (Json.obj signed') := by
  obtain ⟨p, signature, hp, hsig, rfl⟩ := signDocument_eq_ok hs
  rw [hprov] at hp
  cases hp
  -- the signature is over what both documents sign
  have hsig' : compactSignature E document' provenance' privateKey kid = .ok signature := by
    rw [← hsig, compactSignature, compactSignature, expectedPayload, expectedPayload, h]
  refine ⟨_, by rw [signDocument, hprov']; dsimp only; rw [hsig']; rfl, ?_⟩
  -- so they agree outside the signature, member by member
  have hmembers : ∀ k, Members.get k ((document.without (lit "provenance")).set (lit "provenance")
      (.obj (provenance.without (lit "signature")))) =
      Members.get k ((document'.without (lit "provenance")).set (lit "provenance")
        (.obj (provenance'.without (lit "signature")))) := by
    intro k
    rw [Json.obj.inj h]
  have hinner : ∀ k, (provenance.without (lit "signature")).get k =
      (provenance'.without (lit "signature")).get k := by
    intro k
    have hk := hmembers (lit "provenance")
    rw [Members.get_set, Members.get_set, if_pos rfl, if_pos rfl, Option.some.injEq,
      Json.obj.injEq] at hk
    rw [hk]
  have hget : ∀ k, k ≠ lit "provenance" → document.get k = document'.get k := by
    intro k hk
    have hk' := hmembers k
    rw [Members.get_set, Members.get_set, if_neg hk, if_neg hk, Members.get_without,
      Members.get_without, if_neg hk, if_neg hk] at hk'
    exact hk'
  have hpget : ∀ k, (Members.set provenance (lit "signature") (Json.str signature)).get k =
      (Members.set provenance' (lit "signature") (Json.str signature)).get k := by
    intro k
    rw [Members.get_set, Members.get_set]
    split_ifs with hk
    · rfl
    · have hk' := hinner k
      rwa [Members.get_without, Members.get_without, if_neg hk, if_neg hk] at hk'
  have hsame : Json.Same Eq
      (Json.obj (Members.set provenance (lit "signature") (Json.str signature)))
      (Json.obj (Members.set provenance' (lit "signature") (Json.str signature))) :=
    .obj (fun k => by rw [hpget k]) fun k v w hv hw => by
      rw [hpget k, hw, Option.some.injEq] at hv
      exact hv ▸ Json.Same.refl w
  refine .obj (fun k => ?_) fun k v w hv hw => ?_
  · rw [Members.get_set, Members.get_set]
    split_ifs with hk
    · simp
    · rw [hget k hk]
  · rw [Members.get_set] at hv hw
    split_ifs at hv hw with hk
    · cases hv
      cases hw
      exact hsame
    · rw [hget k hk, hw, Option.some.injEq] at hv
      exact hv ▸ Json.Same.refl w

/-- **Sign, serialize, parse, verify.** The text of a signed document
verifies as the key id it was signed under, whether its integers are read
as integers or as floats, and whatever signature the document carried
before. -/
theorem verify_signDocument {E : Ed25519} (hE : E.Correct) {document : Members (Doc F)}
    (hdoc : (Json.obj document).Valid PyNum.IsDouble Json.AnyText) {kid : Text}
    (hkid : KidPattern kid) {privateKey : E.PrivateKey} {signed : Members (Doc F)}
    (hs : signDocument E document privateKey kid = .ok signed) :
    (∃ (text : Text) (parsed parsedFloat : Members (Doc F)), dumps {} (.obj signed) = .ok text ∧
      Json.loads defaultHooks text = .ok (.obj parsed) ∧
      Json.loads floatHooks text = .ok (.obj parsedFloat) ∧
      ∀ directory : Members E.PublicKey, directory.get kid = some (E.publicKey privateKey) →
        verify E directory parsed = .ok kid ∧ verify E directory parsedFloat = .ok kid) ∧
    ∀ document' provenance provenance' : Members (Doc F),
      document.get (lit "provenance") = some (.obj provenance) →
      document'.get (lit "provenance") = some (.obj provenance') →
      signedDocument document provenance = signedDocument document' provenance' →
      ∃ signed', signDocument E document' privateKey kid = .ok signed' ∧
        Json.Same Eq (Json.obj signed) (Json.obj signed') := by
  refine ⟨?_, fun _ _ _ hp hp' h => signDocument_congr hp hp' h hs⟩
  obtain ⟨provenance, signature, hprov, hsig, rfl⟩ := signDocument_eq_ok hs
  set signed := document.set (lit "provenance")
    (Json.obj (Members.set provenance (lit "signature") (.str signature))) with hsigned
  have hvalid := valid_signed hdoc hprov hsig
  have hfinite : (Json.obj signed).Valid PyNum.Finite Text.IsScalar := by
    refine Json.Valid.mono (fun n hn => ?_) (fun _ => id) hvalid
    cases n with
    | int n => trivial
    | float x => exact hn
  have hnumber : ∀ n : PyNum F, n.IsDouble → ∃ t, dumpsNumber true n = .ok t := by
    intro n hn
    cases n with
    | int n =>
      have hlt : n.natAbs < 10 ^ 16 := lt_of_le_of_lt hn (by norm_num)
      have hshort : (Text.ofNat n.natAbs).length ≤ 16 := Text.length_ofNat_le (by decide) hlt
      have hlen : ¬maxStrDigits < (Text.ofNat n.natAbs).length := by
        unfold maxStrDigits
        omega
      exact ⟨_, if_neg hlen⟩
    | float x => exact ⟨_, if_pos hn⟩
  -- the signed document is written, and read back by either parse
  obtain ⟨text, htext⟩ := Json.serialize_isOk (S := (DumpsOptions.style {} : Json.Style (PyNum F) _))
    (fun n hn => hnumber n hn) _ hvalid 0
  obtain ⟨hdefault, hfloat⟩ := loads_dumps (o := {}) rfl hfinite htext
  rw [Json.map, Json.mapMembers_eq] at hfloat
  refine ⟨text, _, _, htext, hdefault, hfloat, fun directory hdir => ⟨?_, ?_⟩⟩
  -- the default parse gives the document itself, the other its view in floats
  · have hid := verify_signed hE hdoc hprov hkid hsig (g := id) (fun n hn => ⟨hn, rfl⟩) hdir
    have hmap := Json.map_id (Json.obj signed)
    rw [Json.map, Json.mapMembers_eq, Json.obj.injEq] at hmap
    rwa [← hsigned, hmap] at hid
  · exact verify_signed hE hdoc hprov hkid hsig (g := floatView) floatView_spec hdir

end SignVerify

/-! ## A scheme that keeps the promises -/

/-- A signature scheme whose signatures are the last octets of what they
sign. -/
def echo : Ed25519 where
  PublicKey := Unit
  PrivateKey := Unit
  publicKey := id
  sign _ m := (m.reverse ++ List.replicate 64 0).take 64
  verify _ s m := decide (s = (m.reverse ++ List.replicate 64 0).take 64)

/-- The sample signature scheme is correct. -/
theorem echo_correct : echo.Correct where
  verify_sign := fun _ _ => decide_eq_true rfl
  length_sign := fun _ m => by simp [echo]

/-- A document that carries a number and a stale signature. -/
def staleDocument : Members (Doc Decimal) :=
  [(lit "level", .num (.int 1)),
    (lit "provenance", .obj [(lit "signature", .str (lit "stale"))])]

/-- A document that carries a signature already. -/
theorem verify_signDocument_stale : ∃ (signed parsed : Members (Doc Decimal)) (text : Text),
    signDocument echo staleDocument () (lit "producer-1") = .ok signed ∧
      dumps {} (.obj signed) = .ok text ∧ Json.loads floatHooks text = .ok (.obj parsed) ∧
      verify echo [(lit "producer-1", ())] parsed = .ok (lit "producer-1") := by
  have hdoc : (Json.obj staleDocument).Valid PyNum.IsDouble Json.AnyText := by decide
  have hsigns : (signDocument echo staleDocument () (lit "producer-1")).isOk = true := by
    decide +kernel
  cases hs : signDocument echo staleDocument () (lit "producer-1") with
  | error e => rw [hs] at hsigns; cases hsigns
  | ok signed =>
    obtain ⟨⟨text, parsed, parsedFloat, ht, -, hparse, hverify⟩, -⟩ :=
      verify_signDocument echo_correct hdoc (by decide) hs
    exact ⟨signed, parsedFloat, text, rfl, ht, hparse, (hverify _ rfl).2⟩

end Envelope

end Lakehouse

import Lakehouse.Signing.SignVerify
/-!
# The spellings of a signature

What `verify` compares of a `provenance.signature` are decoded segments,
and the decoder drops the unused low bits of a segment's last character.
Two accepted texts of the same header and signature octets differ in such
a character or not at all (`signatureText_eq_iff`). The 64 octets of an
Ed25519 signature leave four bits unused, so no accepted text is the only
one (`exists_spelling`).
-/

namespace Lakehouse

namespace Envelope

variable {F : Type}

/-- The segments of the signature. -/
def segments (envelope : Members (Doc F)) : Option (List Text) :=
  (signatureText envelope).map (Text.splitOn 0x2E)

/-- The octets of the protected header and of the signature. -/
def decodedSignature (envelope : Members (Doc F)) : Option (Bytes × Bytes) := do
  match ← segments envelope with
  | [encodedHeader, _, encodedSignature] =>
    return (← Base64.decode encodedHeader, ← Base64.decode encodedSignature)
  | _ => none

/-- Envelopes that are equal except for `provenance.signature`. -/
def EqualButSignature (envelope envelope' : Members (Doc F)) : Prop :=
  ∃ provenance provenance', envelope.get (lit "provenance") = some (.obj provenance) ∧
    envelope'.get (lit "provenance") = some (.obj provenance') ∧
    signedDocument envelope provenance = signedDocument envelope' provenance'

/-- The last characters of the segments. -/
def lastCharacters (envelope : Members (Doc F)) : Option (List (Option ℕ)) :=
  (segments envelope).map (List.map List.getLast?)

section OneText

variable [PyFloat F] (E : Ed25519) (directory : Members E.PublicKey)

/-- **Two spellings of one signature**: envelopes that differ in the signature
at most, both accepted, with the same header, signature and key id. -/
structure Spellings (kid : Text) (envelope envelope' : Members (Doc F)) : Prop where
  rest : EqualButSignature envelope envelope'
  accepted : verify E directory envelope = .ok kid
  accepted' : verify E directory envelope' = .ok kid
  decoded : decodedSignature envelope = decodedSignature envelope'

/-- **One accepted text**: an envelope has no other spelling. -/
def OneAcceptedText (envelope : Members (Doc F)) : Prop :=
  ∀ kid envelope', Spellings E directory kid envelope envelope' →
    signatureText envelope = signatureText envelope'

end OneText

/-! ## The decoder of a segment -/

/-- A segment that decodes has no dot. -/
theorem dot_notMem {segment : Text} {b : Bytes} (h : Base64.decode segment = some b) :
    0x2E ∉ segment := fun hmem => by
  have hdot := Base64.isSome_of_decode h _ hmem
  cases hdot

/-- A signature is its three segments with dots between. -/
theorem join_segments {signature h p s : Text} (hsplit : Text.splitOn 0x2E signature = [h, p, s]) :
    signature = h ++ 0x2E :: (p ++ 0x2E :: s) := by
  have hjoin := Text.join_splitOn 0x2E signature
  rw [hsplit] at hjoin
  rw [← hjoin]
  simp only [Text.join, List.append_assoc, List.singleton_append]

/-- Segments that decode are the ones the signature splits into. -/
theorem splitOn_segments {h p s : Text} {headerBytes payloadBytes signatureBytes : Bytes}
    (hh : Base64.decode h = some headerBytes) (hp : Base64.decode p = some payloadBytes)
    (hs : Base64.decode s = some signatureBytes) :
    Text.splitOn 0x2E (h ++ 0x2E :: (p ++ 0x2E :: s)) = [h, p, s] := by
  rw [Text.splitOn_append (dot_notMem hh), Text.splitOn_append (dot_notMem hp),
    Text.splitOn_of_notMem (dot_notMem hs)]

/-! ## Two accepted texts -/

/-- The segments of an envelope are those of its signature. -/
theorem segments_of_text {envelope : Members (Doc F)} {signature : Text} {parts : List Text}
    (h : signatureText envelope = some signature) (hsplit : Text.splitOn 0x2E signature = parts) :
    segments envelope = some parts := by
  rw [segments, h, Option.map_some, hsplit]

/-- What a signature decodes to, segment by segment. -/
theorem decodedSignature_eq {envelope : Members (Doc F)} {h p s : Text}
    {headerBytes signatureBytes : Bytes} (hsegments : segments envelope = some [h, p, s])
    (hh : Base64.decode h = some headerBytes) (hs : Base64.decode s = some signatureBytes) :
    decodedSignature envelope = some (headerBytes, signatureBytes) := by
  rw [decodedSignature, hsegments]
  simp only [Option.bind_eq_bind, Option.bind_some, hh, hs, Option.pure_def]

variable [PyFloat F] {E : Ed25519} {directory : Members E.PublicKey}
  {envelope envelope' : Members (Doc F)} {kid : Text}

/-- **Two spellings are one text exactly when the last characters of their
segments agree.** -/
theorem signatureText_eq_iff (h : Spellings E directory kid envelope envelope') :
    signatureText envelope = signatureText envelope' ↔
      lastCharacters envelope = lastCharacters envelope' := by
  constructor
  · intro htext
    rw [lastCharacters, lastCharacters, segments, segments, htext]
  · intro hlast
    obtain ⟨hprov, hsig, hsplit, hh, hp, hs, -, -, -, hexpected, -⟩ := verify_eq_ok.1 h.accepted
    obtain ⟨hprov', hsig', hsplit', hh', hp', hs', -, -, -, hexpected', -⟩ := verify_eq_ok.1 h.accepted'
    rw [decodeBase64url_iff] at hh hp hs hh' hp' hs'
    have htext := signatureText_eq_some.2 ⟨_, hprov, hsig⟩
    have htext' := signatureText_eq_some.2 ⟨_, hprov', hsig'⟩
    have hsegments := segments_of_text htext hsplit
    have hsegments' := segments_of_text htext' hsplit'
    -- the header and the signature are the same octets
    have hdecoded := h.decoded
    rw [decodedSignature_eq hsegments hh.2 hs.2, decodedSignature_eq hsegments' hh'.2 hs'.2,
      Option.some.injEq, Prod.mk.injEq] at hdecoded
    -- and so is the payload, the canonical form of what both envelopes say
    obtain ⟨provenance, provenance', hget, hget', hsigned⟩ := h.rest
    rw [hprov, Option.some.injEq, Json.obj.injEq] at hget
    rw [hprov', Option.some.injEq, Json.obj.injEq] at hget'
    subst hget hget'
    rw [expectedPayload, hsigned, ← expectedPayload, hexpected', Except.ok.injEq] at hexpected
    rw [lastCharacters, lastCharacters, hsegments, hsegments'] at hlast
    simp only [Option.map_some, List.map_cons, List.map_nil, Option.some.injEq, List.cons.injEq,
      and_true] at hlast
    have h₁ := Base64.decode_inj hh.2 (hdecoded.1 ▸ hh'.2) hlast.1
    have h₂ := Base64.decode_inj hp.2 (hexpected ▸ hp'.2) hlast.2.1
    have h₃ := Base64.decode_inj hs.2 (hdecoded.2 ▸ hs'.2) hlast.2.2
    rw [htext, htext', join_segments hsplit, join_segments hsplit', h₁, h₂, h₃]

/-- **Every accepted envelope has another spelling**, whose signature segment
ends in another of the sixteen characters of its two high bits. -/
theorem exists_spelling (hE : ∀ k s m, E.verify k s m = true → s.length = 64)
    (h : verify E directory envelope = .ok kid) :
    ∃ envelope', Spellings E directory kid envelope envelope' ∧
      signatureText envelope ≠ signatureText envelope' := by
  obtain @⟨provenance, header, signature, encodedHeader, encodedPayload, encodedSignature, _, _,
    signatureBytes, _, hprov, hsig, hsplit, hh, hp, hs, hheader, hkid, hdirectory, hexpected, hverify⟩ :=
    verify_eq_ok.1 h
  have hh' := decodeBase64url_iff.1 hh
  have hp' := decodeBase64url_iff.1 hp
  have hs' := decodeBase64url_iff.1 hs
  have hlength : signatureBytes.length % 3 = 1 := by rw [hE _ _ _ hverify]
  obtain ⟨t, c, rfl⟩ := List.eq_nil_or_concat' encodedSignature |>.resolve_left hs'.1
  obtain ⟨c', hc', -, hrespelled⟩ := Base64.decode_respell hs'.2 hlength
  have hsplit' := splitOn_segments hh'.2 hp'.2 hrespelled
  set signature' := encodedHeader ++ 0x2E :: (encodedPayload ++ 0x2E :: (t ++ [c'])) with hsignature'
  set provenance' := Members.set provenance (lit "signature") (.str signature') with hprovenance'
  set envelope' := envelope.set (lit "provenance") (.obj provenance') with henvelope'
  have hprov' : envelope'.get (lit "provenance") = some (.obj provenance') := by
    rw [henvelope', Members.get_set, if_pos rfl]
  have hsig' : Members.get (lit "signature") provenance' = some (.str signature') := by
    rw [hprovenance', Members.get_set, if_pos rfl]
  have hsigned : signedDocument envelope' provenance' = signedDocument envelope provenance :=
    signedDocument_set _ _ _
  have htext := signatureText_eq_some.2 ⟨_, hprov, hsig⟩
  have htext' := signatureText_eq_some.2 ⟨_, hprov', hsig'⟩
  refine ⟨envelope', ⟨⟨provenance, provenance', hprov, hprov', hsigned.symm⟩, h, ?_, ?_⟩, ?_⟩
  · refine verify_eq_ok.2 (.intro hprov' hsig' hsplit' hh hp ?_ hheader hkid hdirectory ?_ hverify)
    · exact decodeBase64url_iff.2 ⟨List.append_ne_nil_of_right_ne_nil _ (List.cons_ne_nil c' []), hrespelled⟩
    · rw [expectedPayload, hsigned]
      exact hexpected
  · rw [decodedSignature_eq (segments_of_text htext hsplit) hh'.2 hs'.2,
      decodedSignature_eq (segments_of_text htext' hsplit') hh'.2 hrespelled]
  · intro heq
    rw [htext, htext', Option.some.injEq] at heq
    rw [heq, hsplit', List.cons.injEq, List.cons.injEq, List.cons.injEq] at hsplit
    exact hc' (by simpa using hsplit.2.2.1)

/-- **No accepted text is the only one**, and what tells the spellings apart
is the last characters of the segments. -/
theorem spellings_of_accepted (hE : ∀ k s m, E.verify k s m = true → s.length = 64)
    (h : verify E directory envelope = .ok kid) :
    (∀ kid' envelope', Spellings E directory kid' envelope envelope' →
      (signatureText envelope = signatureText envelope' ↔
        lastCharacters envelope = lastCharacters envelope')) ∧
    ¬OneAcceptedText E directory envelope := by
  refine ⟨fun kid' envelope' => signatureText_eq_iff, fun hone => ?_⟩
  obtain ⟨envelope', hspellings, hne⟩ := exists_spelling hE h
  exact hne (hone kid envelope' hspellings)

/-! ## A signed document and its other spelling -/

/-- A signature of the sample scheme has 64 bytes. -/
theorem echo_length (k : echo.PublicKey) (s m : Bytes) (h : echo.verify k s m = true) :
    s.length = 64 := by
  rw [of_decide_eq_true h]
  exact echo_correct.length_sign () m

/-- The signed copy of the stale document. -/
def signedStale : Members (Doc Decimal) :=
  (signDocument echo staleDocument () (lit "producer-1")).toOption.getD []

/-- The sample envelope verifies. -/
theorem verify_signedStale :
    verify echo [(lit "producer-1", ())] signedStale = .ok (lit "producer-1") := by
  have hdoc : (Json.obj staleDocument).Valid PyNum.IsDouble Json.AnyText := by decide
  have hsigns : (signDocument echo staleDocument () (lit "producer-1")).isOk = true := by
    decide +kernel
  rw [signedStale]
  cases hs : signDocument echo staleDocument () (lit "producer-1") with
  | error e =>
    rw [hs] at hsigns
    cases hsigns
  | ok signed =>
    obtain ⟨provenance, signature, hprov, hsignature, rfl⟩ := signDocument_eq_ok hs
    have hdirectory : Members.get (lit "producer-1") [(lit "producer-1", ())] =
        some (echo.publicKey ()) := rfl
    have hverify := verify_signed echo_correct hdoc hprov (by decide) hsignature (g := id)
      (fun n hn => ⟨hn, rfl⟩) hdirectory
    have hid := Json.map_id (Json.obj (staleDocument.set (lit "provenance")
      (.obj (Members.set provenance (lit "signature") (.str signature)))))
    rw [Json.map, Json.mapMembers_eq, Json.obj.injEq] at hid
    rwa [hid] at hverify

/-- The sample envelope is accepted in a second spelling. -/
theorem spellings_of_accepted_stale :
    ¬OneAcceptedText echo [(lit "producer-1", ())] signedStale :=
  (spellings_of_accepted echo_length verify_signedStale).2

/-- The signed copy has a second accepted text. -/
theorem not_oneAcceptedText_stale :
    ¬∀ (envelope envelope' : Members (Doc Decimal)) (kid : Text),
      Spellings echo [(lit "producer-1", ())] kid envelope envelope' →
        signatureText envelope = signatureText envelope' := by
  intro h
  obtain ⟨respelled, hspellings, hne⟩ := exists_spelling echo_length verify_signedStale
  exact hne (h signedStale respelled _ hspellings)

end Envelope

end Lakehouse

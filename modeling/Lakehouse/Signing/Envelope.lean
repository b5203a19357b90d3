import Lakehouse.Signing.Identity
import Lakehouse.Common.Base64
/-!
# Envelope signatures

`signDocument` writes a compact JWS over the canonical form of a document
less its signature; `verify` recomputes that form from the document it is
given, whatever parse it came from. The Ed25519 primitive and the keys
are the library's: `Ed25519` names what the program calls of it.
-/

namespace Lakehouse

/-- The Ed25519 operations of the cryptography library. -/
structure Ed25519 where
  PublicKey : Type
  PrivateKey : Type
  publicKey : PrivateKey → PublicKey
  sign : PrivateKey → Bytes → Bytes
  /-- `public_key.verify(signature, message)` does not raise. -/
  verify : PublicKey → Bytes → Bytes → Bool

/-- **What Ed25519 promises**: a signature verifies under the key's own
public key. It has 64 octets. -/
structure Ed25519.Correct (E : Ed25519) : Prop where
  verify_sign : ∀ k m, E.verify (E.publicKey k) (E.sign k m) m = true
  length_sign : ∀ k m, (E.sign k m).length = 64

namespace Envelope

/-- `REASON_MALFORMED_JWS`. -/
def reasonMalformedJws : Text := lit "malformed-jws"
/-- `REASON_UNSUPPORTED_ALG`. -/
def reasonUnsupportedAlg : Text := lit "unsupported-alg"
/-- `REASON_UNKNOWN_KID`. -/
def reasonUnknownKid : Text := lit "unknown-kid"
/-- `REASON_PAYLOAD_MISMATCH`. -/
def reasonPayloadMismatch : Text := lit "payload-mismatch"
/-- `REASON_INVALID_SIGNATURE`. -/
def reasonInvalidSignature : Text := lit "invalid-signature"

/-- `raise SignatureVerificationError(reason, detail)`. -/
def rejected {α : Type} (reason detail : Text) : Except PyError α :=
  .error (.signatureRejected reason
    (lit "envelope signature rejected (" ++ reason ++ lit "): " ++ detail))

/-- `[A-Za-z0-9._-]`. -/
def isKidChar (c : ℕ) : Bool :=
  (0x41 ≤ c && c ≤ 0x5A) || (0x61 ≤ c && c ≤ 0x7A) || (0x30 ≤ c && c ≤ 0x39) || c == 0x2E ||
    c == 0x5F || c == 0x2D

/-- `KID_PATTERN.fullmatch(kid)`. -/
def KidPattern (kid : Text) : Prop := 1 ≤ kid.length ∧ kid.length ≤ 256 ∧ ∀ c ∈ kid, isKidChar c = true

instance : DecidablePred KidPattern := fun kid => by unfold KidPattern; infer_instance

/-- `_decode_base64url`. -/
def decodeBase64url (segment what : Text) : Except PyError Bytes :=
  if segment = [] ∨ ¬∀ c ∈ segment, (Base64.value c).isSome then
    rejected reasonMalformedJws (what ++ lit " is not unpadded base64url")
  else
    match Base64.decode segment with
    | some b => .ok b
    | none => rejected reasonMalformedJws (what ++ lit " is not valid base64url")

/-- `text.encode("ascii")` of a text known to be ASCII. -/
def encodeAscii (t : Text) : Bytes := t.map UInt8.ofNat

section Verify

variable {F : Type} [PyFloat F]

/-- The document the signature covers: `provenance` last, without its
`signature`. -/
def signedDocument (envelope provenance : Members (Doc F)) : Doc F :=
  .obj ((envelope.without (lit "provenance")).set (lit "provenance")
    (.obj (provenance.without (lit "signature"))))

/-- The protected header of a signature. -/
def decodeHeader (headerBytes : Bytes) : Except PyError (Members (Doc F)) := do
  let malformed : Except PyError (Members (Doc F)) :=
    rejected reasonMalformedJws (lit "protected header is not valid JSON")
  match decodeUtf8 headerBytes with
  | .error _ => malformed
  | .ok text =>
    match Json.loads (defaultHooks (F := F)) text with
    | .error (.jsonDecodeError _) => malformed
    | .error e => .error e
    | .ok (.obj header) => .ok header
    | .ok _ => rejected reasonMalformedJws (lit "protected header must be a JSON object")

/-- The key id a header names. -/
def headerKid (header : Members (Doc F)) : Except PyError Text :=
  match header.get (lit "alg") with
  | some (.str alg) =>
    if alg = lit "EdDSA" then
      match header.get (lit "kid") with
      | some (.str kid) =>
        if KidPattern kid then .ok kid
        else rejected reasonMalformedJws (lit "protected header kid is malformed")
      | _ => rejected reasonMalformedJws (lit "protected header kid is malformed")
    else rejected reasonUnsupportedAlg (lit "protected header alg must be EdDSA")
  | _ => rejected reasonUnsupportedAlg (lit "protected header alg must be EdDSA")

/-- The bytes a signature must cover. -/
def expectedPayload (envelope provenance : Members (Doc F)) : Except PyError Bytes := do
  encodeUtf8 (← Jcs.canonicalize (signedDocument envelope provenance))

/-- **`EnvelopeSignatureVerifier._verify`**: the authenticated key id. -/
def verify (E : Ed25519) (directory : Members E.PublicKey) (envelope : Members (Doc F)) :
    Except PyError Text :=
  match envelope.get (lit "provenance") with
  | some (.obj provenance) =>
    match Members.get (lit "signature") provenance with
    | some (.str signature) =>
      match Text.splitOn 0x2E signature with
      | [encodedHeader, encodedPayload, encodedSignature] => do
        let headerBytes ← decodeBase64url encodedHeader (lit "protected header")
        let payloadBytes ← decodeBase64url encodedPayload (lit "payload")
        let signatureBytes ← decodeBase64url encodedSignature (lit "signature")
        let header ← decodeHeader (F := F) headerBytes
        let kid ← headerKid header
        match directory.get kid with
        | none =>
          rejected reasonUnknownKid (lit "kid '" ++ kid ++ lit "' is not in the key directory")
        | some publicKey =>
          match expectedPayload envelope provenance with
          | .error e =>
            if e.isValueError then
              rejected reasonPayloadMismatch (lit "envelope cannot be canonicalized: " ++ e.text)
            else .error e
          | .ok expected =>
            if payloadBytes ≠ expected then
              rejected reasonPayloadMismatch
                (lit "JWS payload does not match the canonical envelope")
            else if E.verify publicKey signatureBytes
                (encodeAscii (encodedHeader ++ 0x2E :: encodedPayload)) then .ok kid
            else rejected reasonInvalidSignature (lit "Ed25519 signature does not verify")
      | _ => rejected reasonMalformedJws (lit "JWS compact form must have three segments")
    | _ => rejected reasonMalformedJws (lit "provenance.signature is not text")
  | _ => rejected reasonMalformedJws (lit "envelope carries no provenance object")

/-- The protected header `{"alg":"EdDSA","kid":kid}`. -/
def protectedHeader (kid : Text) : Members (Doc F) :=
  [(lit "alg", .str (lit "EdDSA")), (lit "kid", .str kid)]

/-- The compact serialization over a document. -/
def compactSignature (E : Ed25519) (document provenance : Members (Doc F))
    (privateKey : E.PrivateKey) (kid : Text) : Except PyError Text := do
  let headerText ← dumps { compact := true } (.obj (protectedHeader (F := F) kid))
  let header := Base64.encode (← encodeUtf8 headerText)
  let payload := Base64.encode (← expectedPayload document provenance)
  let signature := Base64.encode (E.sign privateKey (encodeAscii (header ++ 0x2E :: payload)))
  return header ++ 0x2E :: payload ++ 0x2E :: signature

/-- **`sign_document`**: the copy of the document that carries its
signature. -/
def signDocument (E : Ed25519) (document : Members (Doc F)) (privateKey : E.PrivateKey)
    (kid : Text) : Except PyError (Members (Doc F)) :=
  match document.get (lit "provenance") with
  | some (.obj provenance) => do
    let signature ← compactSignature E document provenance privateKey kid
    return document.set (lit "provenance") 
      (.obj (Members.set provenance (lit "signature") (.str signature)))
  | _ => .error (.valueError (lit "document carries no provenance object"))

end Verify

section SignatureText

variable {F : Type}

/-- The text of `provenance.signature`. -/
def signatureText (envelope : Members (Doc F)) : Option Text :=
  match envelope.get (lit "provenance") with
  | some (.obj provenance) =>
    match Members.get (lit "signature") provenance with
    | some (.str signature) => some signature
    | _ => none
  | _ => none

theorem signatureText_eq_some {envelope : Members (Doc F)} {signature : Text} :
    signatureText envelope = some signature ↔ ∃ provenance,
      envelope.get (lit "provenance") = some (.obj provenance) ∧
      Members.get (lit "signature") provenance = some (.str signature) := by
  unfold signatureText
  constructor
  · intro h
    split at h
    · next provenance hprovenance =>
      split at h
      · next signature' hsignature =>
        cases h
        exact ⟨provenance, hprovenance, hsignature⟩
      · cases h
    · cases h
  · rintro ⟨provenance, hprovenance, hsignature⟩
    rw [hprovenance]
    dsimp only
    rw [hsignature]

end SignatureText

/-! ## What is accepted -/

theorem decodeBase64url_iff {segment what : Text} {b : Bytes} :
    decodeBase64url segment what = .ok b ↔ segment ≠ [] ∧ Base64.decode segment = some b := by
  unfold decodeBase64url
  constructor
  · intro h
    split_ifs at h with hsegment
    · cases h
    · cases hd : Base64.decode segment with
      | none =>
        rw [hd] at h
        cases h
      | some b' =>
        rw [hd] at h
        cases h
        exact ⟨fun hnil => hsegment (.inl hnil), rfl⟩
  · rintro ⟨hne, hd⟩
    have hchars : ¬(segment = [] ∨ ¬∀ c ∈ segment, (Base64.value c).isSome) := by
      rw [not_or, not_not]
      exact ⟨hne, Base64.isSome_of_decode hd⟩
    rw [if_neg hchars, hd]

section Accepted

variable {F : Type} [PyFloat F] (E : Ed25519) (directory : Members E.PublicKey)

/-- What an accepted envelope has passed. -/
inductive Accepted (envelope : Members (Doc F)) (kid : Text) : Prop
  | intro {provenance header : Members (Doc F)} {signature encodedHeader encodedPayload
      encodedSignature : Text} {headerBytes payloadBytes signatureBytes : Bytes}
      {publicKey : E.PublicKey} :
      envelope.get (lit "provenance") = some (.obj provenance) →
      Members.get (lit "signature") provenance = some (.str signature) →
      Text.splitOn 0x2E signature = [encodedHeader, encodedPayload, encodedSignature] →
      decodeBase64url encodedHeader (lit "protected header") = .ok headerBytes →
      decodeBase64url encodedPayload (lit "payload") = .ok payloadBytes →
      decodeBase64url encodedSignature (lit "signature") = .ok signatureBytes →
      decodeHeader (F := F) headerBytes = .ok header →
      headerKid header = .ok kid →
      directory.get kid = some publicKey →
      expectedPayload envelope provenance = .ok payloadBytes →
      E.verify publicKey signatureBytes (encodeAscii (encodedHeader ++ 0x2E :: encodedPayload)) = true →
      Accepted envelope kid

variable {E directory} {envelope : Members (Doc F)} {kid : Text}

/-- **An envelope is accepted** just when it passes every check. -/
theorem verify_eq_ok : verify E directory envelope = .ok kid ↔ Accepted E directory envelope kid := by
  constructor
  · intro h
    unfold verify at h
    split at h
    · next provenance hprovenance =>
      split at h
      · next signature hsignature =>
        split at h
        · next encodedHeader encodedPayload encodedSignature hsplit =>
          obtain ⟨headerBytes, hh, h⟩ := bind_eq_ok.1 h
          obtain ⟨payloadBytes, hp, h⟩ := bind_eq_ok.1 h
          obtain ⟨signatureBytes, hs, h⟩ := bind_eq_ok.1 h
          obtain ⟨header, hheader, h⟩ := bind_eq_ok.1 h
          obtain ⟨kid', hkid, h⟩ := bind_eq_ok.1 h
          split at h
          · cases h
          · next publicKey hdirectory =>
            split at h
            · split_ifs at h
              all_goals cases h
            · next expected hexpected =>
              split_ifs at h with hpayload hverify
              · cases h
              · cases h
                rw [not_not] at hpayload
                exact .intro hprovenance hsignature hsplit hh hp hs hheader hkid hdirectory
                  (hpayload ▸ hexpected) hverify
              · cases h
        · cases h
      · cases h
    · cases h
  · rintro ⟨hprovenance, hsignature, hsplit, hh, hp, hs, hheader, hkid, hdirectory, hexpected, hverify⟩
    unfold verify
    rw [hprovenance]
    dsimp only
    rw [hsignature]
    dsimp only
    rw [hsplit]
    dsimp only
    rw [hh, ok_bind, hp, ok_bind, hs, ok_bind, hheader, ok_bind, hkid, ok_bind, hdirectory]
    dsimp only
    rw [hexpected]
    dsimp only
    rw [if_neg (not_not.2 rfl), if_pos hverify]

end Accepted

end Envelope

end Lakehouse

import Lakehouse.Common.Counts
import Lakehouse.Signing.SignVerify
/-!
# Verification counters

What `verify` counts of its calls: those that return, and those that
raise a `SignatureVerificationError`, by reason. Every exit of `_verify`
is one of these, but for a protected header that `json.loads` refuses
with a plain `ValueError` (`verify_raises`, `verify_overflows`).
-/

namespace Lakehouse

namespace Json

variable {N ε : Type} {E : ε → Prop}

/-- A text raises what its numbers raise. -/
theorem serialize_raises {S : Style N ε} (h : ∀ n, OnlyRaises E (S.number n)) (v : Json N)
    (d : ℕ) : OnlyRaises E (v.serialize S d) := by
  induction v using induct generalizing d with
  | null | bool _ | str _ => exact .ok _
  | num n => exact h n
  | arr vs ih =>
    rw [serialize_arr]
    refine .bind (.collect fun x hx => ?_) fun _ _ => .ok _
    obtain ⟨v, hv, rfl⟩ := List.mem_map.1 hx
    exact ih v hv _
  | obj ms ih =>
    rw [serialize_obj]
    refine .bind (.collect fun x hx => ?_) fun _ _ => .ok _
    obtain ⟨m, hm, rfl⟩ := List.mem_map.1 hx
    exact .bind (ih m ((S.arrange_perm ms).mem_iff.1 hm) _) fun _ _ => .ok _

end Json

namespace Envelope

variable {F : Type} [PyFloat F]

/-- **`SignatureVerificationMetrics`.** -/
structure SignatureVerificationMetrics where
  verified : ℕ
  rejected : Members ℕ

namespace SignatureVerificationMetrics

/-- `SignatureVerificationMetrics()`. -/
def empty : SignatureVerificationMetrics := ⟨0, []⟩

/-- `record_verified`. -/
def recordVerified (metrics : SignatureVerificationMetrics) : SignatureVerificationMetrics :=
  { metrics with verified := metrics.verified + 1 }

/-- `record_rejected`. -/
def recordRejected (metrics : SignatureVerificationMetrics) (reason : Text) :
    SignatureVerificationMetrics :=
  { metrics with rejected := metrics.rejected.increment reason }

/-- `metrics.verified + sum(metrics.rejected.values())`. -/
def total (metrics : SignatureVerificationMetrics) : ℕ :=
  metrics.verified + Members.total metrics.rejected

end SignatureVerificationMetrics

section Count

variable (E : Ed25519) (directory : Members E.PublicKey)

/-- The counters after a call of `EnvelopeSignatureVerifier.verify`. Only a
`SignatureVerificationError` is counted of the exceptions. -/
def count (metrics : SignatureVerificationMetrics) (envelope : Members (Doc F)) :
    SignatureVerificationMetrics :=
  match verify E directory envelope with
  | .ok _ => metrics.recordVerified
  | .error (.signatureRejected reason _) => metrics.recordRejected reason
  | .error _ => metrics

/-- The counters of a verifier after some calls. -/
def countAll (envelopes : List (Members (Doc F))) : SignatureVerificationMetrics :=
  envelopes.foldl (count E directory) .empty

end Count

/-- The reason codes. -/
def reasonCodes : List Text :=
  [reasonMalformedJws, reasonUnsupportedAlg, reasonUnknownKid, reasonPayloadMismatch,
    reasonInvalidSignature]

/-- A `SignatureVerificationError` with a reason code. -/
def Coded (e : PyError) : Prop := ∃ reason ∈ reasonCodes, ∃ message, e = .signatureRejected reason message

/-- The text of the protected header, where `_verify` comes to read it. -/
def headerText (envelope : Members (Doc F)) : Option Text :=
  match envelope.get (lit "provenance") with
  | some (.obj provenance) =>
    match Members.get (lit "signature") provenance with
    | some (.str signature) =>
      match Text.splitOn 0x2E signature with
      | [encodedHeader, encodedPayload, encodedSignature] => do
        let headerBytes ← (decodeBase64url encodedHeader []).toOption
        let _ ← (decodeBase64url encodedPayload []).toOption
        let _ ← (decodeBase64url encodedSignature []).toOption
        (decodeUtf8 headerBytes).toOption
      | _ => none
    | _ => none
  | _ => none

/-- **A protected header that `json.loads` refuses with a plain
`ValueError`**: it reads an integer literal of more than 4300 digits. -/
def HeaderOverflows (envelope : Members (Doc F)) : Prop :=
  ∃ text message, headerText envelope = some text ∧
    Json.loads (defaultHooks (F := F)) text = .error (.valueError message)

/-! ## The exits of `_verify` -/

/-- A rejection carries its reason code. -/
theorem rejected_raises {α : Type} {reason : Text} (h : reason ∈ reasonCodes) (detail : Text) :
    OnlyRaises Coded (rejected reason detail : Except PyError α) :=
  .error ⟨reason, h, _, rfl⟩

/-- A segment that cannot be decoded is rejected with a code. -/
theorem decodeBase64url_raises (segment what : Text) :
    OnlyRaises Coded (decodeBase64url segment what) := by
  unfold decodeBase64url
  split_ifs
  · exact rejected_raises (by decide) _
  · split
    · exact .ok _
    · exact rejected_raises (by decide) _

/-- What is said of a segment does not change what it decodes to. -/
theorem decodeBase64url_eq_ok {segment what : Text} {b : Bytes}
    (h : decodeBase64url segment what = .ok b) (what' : Text) :
    decodeBase64url segment what' = .ok b :=
  decodeBase64url_iff.2 (decodeBase64url_iff.1 h)

/-- `json.loads` raises a `JSONDecodeError` or a plain `ValueError`. -/
theorem loads_defaultHooks_raises (t : Text) :
    OnlyRaises (fun e => ∃ message, e = .jsonDecodeError message ∨ e = .valueError message)
      (Json.loads (defaultHooks (F := F)) t) := by
  refine Json.loads_raises {
    number := fun l => ?_
    constant := fun _ => .ok _
    invalid := fun message => ⟨message, .inl rfl⟩ } t
  rw [defaultHooks]
  dsimp only
  unfold parseInt
  split_ifs
  · exact .error ⟨_, .inr rfl⟩
  · exact .ok _
  · exact .ok _

/-- A number that cannot be written raises a `ValueError`. -/
theorem serializeNumber_raises (n : PyNum F) : OnlyRaises ValueError (Jcs.serializeNumber n) := by
  cases n with
  | int n =>
    rw [Jcs.serializeNumber]
    split_ifs
    · exact .error rfl
    · exact .ok _
  | float x =>
    rw [Jcs.serializeNumber]
    split_ifs
    · exact .ok _
    · exact .error rfl

/-- A canonical form raises a `ValueError`, which `_verify` catches. -/
theorem expectedPayload_raises (envelope provenance : Members (Doc F)) :
    OnlyRaises ValueError (expectedPayload envelope provenance) :=
  .bind (Json.serialize_raises serializeNumber_raises _ 0) fun t _ => encodeUtf8_raises t

omit [PyFloat F] in
/-- A header without a key id is rejected with a code. -/
theorem headerKid_raises (header : Members (Doc F)) : OnlyRaises Coded (headerKid header) := by
  unfold headerKid
  split
  · split_ifs
    · split
      · split_ifs
        · exact .ok _
        · exact rejected_raises (by decide) _
      · exact rejected_raises (by decide) _
    · exact rejected_raises (by decide) _
  · exact rejected_raises (by decide) _

omit [PyFloat F] in
/-- The header is a text of the envelope. -/
theorem headerText_eq {envelope provenance : Members (Doc F)} {signature h p s text : Text}
    {headerBytes payloadBytes signatureBytes : Bytes} {whatH whatP whatS : Text}
    (hprovenance : envelope.get (lit "provenance") = some (.obj provenance))
    (hsignature : Members.get (lit "signature") provenance = some (.str signature))
    (hsplit : Text.splitOn 0x2E signature = [h, p, s])
    (hh : decodeBase64url h whatH = .ok headerBytes)
    (hp : decodeBase64url p whatP = .ok payloadBytes)
    (hs : decodeBase64url s whatS = .ok signatureBytes)
    (htext : decodeUtf8 headerBytes = .ok text) : headerText envelope = some text := by
  rw [headerText, hprovenance]
  dsimp only
  rw [hsignature]
  dsimp only
  rw [hsplit]
  dsimp only
  rw [decodeBase64url_eq_ok hh [], decodeBase64url_eq_ok hp [], decodeBase64url_eq_ok hs []]
  change (decodeUtf8 headerBytes).toOption = some text
  rw [htext]
  rfl

/-- **Every other exit has a reason code.** -/
theorem verify_raises (E : Ed25519) (directory : Members E.PublicKey)
    {envelope : Members (Doc F)} (h : ¬HeaderOverflows envelope) :
    OnlyRaises Coded (verify E directory envelope) := by
  unfold verify
  split
  · next provenance hprovenance =>
    split
    · next signature hsignature =>
      split
      · next encodedHeader encodedPayload encodedSignature hsplit =>
        refine .bind (decodeBase64url_raises _ _) fun headerBytes hh => ?_
        refine .bind (decodeBase64url_raises _ _) fun payloadBytes hp => ?_
        refine .bind (decodeBase64url_raises _ _) fun signatureBytes hs => ?_
        refine .bind ?_ fun header _ => .bind (headerKid_raises header) fun kid _ => ?_
        · -- The header is read.
          unfold decodeHeader
          simp only
          split
          · exact rejected_raises (by decide) _
          · next text htext =>
            split
            · exact rejected_raises (by decide) _
            · next e hnot hloads =>
              obtain ⟨message, rfl | rfl⟩ := loads_defaultHooks_raises text e hloads
              · exact absurd rfl (hnot message)
              · exact absurd ⟨text, message, headerText_eq hprovenance hsignature hsplit hh hp hs htext,
                  hloads⟩ h
            · exact .ok _
            · exact rejected_raises (by decide) _
        · split
          · exact rejected_raises (by decide) _
          · split
            · next e he =>
              have hvalue := expectedPayload_raises envelope provenance e he
              rw [if_pos hvalue]
              exact rejected_raises (by decide) _
            · split_ifs
              · exact rejected_raises (by decide) _
              · exact .ok _
              · exact rejected_raises (by decide) _
      · exact rejected_raises (by decide) _
    · exact rejected_raises (by decide) _
  · exact rejected_raises (by decide) _

/-- **A header that overflows is not counted.** -/
theorem verify_overflows (E : Ed25519) (directory : Members E.PublicKey)
    {envelope : Members (Doc F)} (h : HeaderOverflows envelope) :
    ∃ message, verify E directory envelope = .error (.valueError message) := by
  obtain ⟨text, message, htext, hloads⟩ := h
  refine ⟨message, ?_⟩
  unfold headerText at htext
  split at htext
  · next provenance hprovenance =>
    split at htext
    · next signature hsignature =>
      split at htext
      · next h p s hsplit =>
        simp only [Option.bind_eq_bind, Option.bind_eq_some_iff, toOption_eq_some] at htext
        obtain ⟨headerBytes, hh, payloadBytes, hp, signatureBytes, hs, htext⟩ := htext
        have hheader : decodeHeader (F := F) headerBytes = .error (.valueError message) := by
          unfold decodeHeader
          rw [htext]
          dsimp only
          rw [hloads]
        unfold verify
        rw [hprovenance]
        dsimp only
        rw [hsignature]
        dsimp only
        rw [hsplit]
        dsimp only
        rw [decodeBase64url_eq_ok hh, ok_bind, decodeBase64url_eq_ok hp, ok_bind,
          decodeBase64url_eq_ok hs, ok_bind, hheader]
        rfl
      · cases htext
    · cases htext
  · cases htext

/-! ## Runs of calls -/

section Runs

variable (E : Ed25519) (directory : Members E.PublicKey)

/-- **A run of calls that is accounted for**, after each of them: the counters
sum to the calls, those that returned are the verified ones, and the others
raised an error with a reason code. -/
def FullyAccounted (envelopes : List (Members (Doc F))) : Prop :=
  ∀ calls, calls <+: envelopes →
    (countAll E directory calls).total = calls.length ∧
    (countAll E directory calls).verified = calls.countP (fun e => (verify E directory e).isOk) ∧
    ∀ e ∈ calls, (∃ kid, verify E directory e = .ok kid) ∨
      ∃ error, verify E directory e = .error error ∧ Coded error

variable {E directory}

/-- A further call is counted last. -/
theorem countAll_concat (calls : List (Members (Doc F))) (e : Members (Doc F)) :
    countAll E directory (calls ++ [e]) = count E directory (countAll E directory calls) e :=
  List.foldl_concat ..

/-- A count keeps the reasons distinct. -/
theorem count_distinct {metrics : SignatureVerificationMetrics} (h : Members.Distinct metrics.rejected)
    (e : Members (Doc F)) : Members.Distinct (count E directory metrics e).rejected := by
  unfold count
  split
  · exact h
  · exact Members.Distinct.increment h _
  · exact h

/-- The reasons counted are distinct. -/
theorem countAll_distinct (calls : List (Members (Doc F))) :
    Members.Distinct (countAll E directory calls).rejected := by
  induction calls using List.reverseRecOn with
  | nil => exact Members.distinct_nil
  | append_singleton calls e ih =>
    rw [countAll_concat]
    exact count_distinct ih e

/-- A call that returned or raised an error with a reason is counted once. -/
theorem count_total {metrics : SignatureVerificationMetrics} (h : Members.Distinct metrics.rejected)
    {e : Members (Doc F)} (he : OnlyRaises Coded (verify E directory e)) :
    (count E directory metrics e).total = metrics.total + 1 := by
  unfold count
  cases hverify : verify E directory e with
  | ok kid =>
    simp only [SignatureVerificationMetrics.total, SignatureVerificationMetrics.recordVerified]
    omega
  | error error =>
    obtain ⟨reason, -, message, rfl⟩ := he error hverify
    simp only [SignatureVerificationMetrics.total, SignatureVerificationMetrics.recordRejected,
      Members.total_increment h]
    omega

/-- A call is counted as verified where it returns. -/
theorem count_verified (metrics : SignatureVerificationMetrics) (e : Members (Doc F)) :
    (count E directory metrics e).verified =
      metrics.verified + if (verify E directory e).isOk then 1 else 0 := by
  unfold count
  cases verify E directory e with
  | ok kid => rfl
  | error error => cases error <;> rfl

/-- **A run is accounted for if and only if no header of it overflows.** -/
theorem fullyAccounted_iff (E : Ed25519) (directory : Members E.PublicKey)
    (envelopes : List (Members (Doc F))) :
    FullyAccounted E directory envelopes ↔ ∀ e ∈ envelopes, ¬HeaderOverflows e := by
  constructor
  · intro h e he hoverflows
    obtain ⟨message, hverify⟩ := verify_overflows E directory hoverflows
    obtain ⟨-, -, hexits⟩ := h envelopes (List.prefix_refl _)
    rcases hexits e he with ⟨kid, hok⟩ | ⟨error, herror, reason, -, text, rfl⟩
    · rw [hverify] at hok
      cases hok
    · rw [hverify] at herror
      cases herror
  · intro h calls hcalls
    have hraises : ∀ e ∈ calls, OnlyRaises Coded (verify E directory e) := fun e he =>
      verify_raises E directory (h e (hcalls.subset he))
    refine ⟨?_, ?_, ?_⟩
    -- the induction is on the calls, since the last is counted last
    · clear hcalls
      induction calls using List.reverseRecOn with
      | nil => rfl
      | append_singleton calls e ih =>
        rw [countAll_concat, count_total (countAll_distinct calls) (hraises e (by simp)),
          ih fun c hc => hraises c (List.mem_append_left _ hc), List.length_append,
          List.length_singleton]
    · clear hcalls hraises
      induction calls using List.reverseRecOn with
      | nil => rfl
      | append_singleton calls e ih =>
        rw [countAll_concat, count_verified, ih, List.countP_append, List.countP_singleton]
    · intro e he
      cases hverify : verify E directory e with
      | ok kid => exact .inl ⟨kid, rfl⟩
      | error error => exact .inr ⟨error, rfl, hraises e he error hverify⟩

end Runs

/-! ## A header of 4301 digits -/

/-- An integer literal that `int` refuses. -/
def longLiteral : Numeral := ⟨false, List.replicate 4301 0x31, none, none⟩

/-- An envelope whose protected header is the literal. -/
def overflowing : Members (Doc Decimal) :=
  [(lit "provenance", .obj [(lit "signature",
    .str (Base64.encode (longLiteral.text.utf8.getD []) ++ 0x2E :: Base64.encode [0] ++
      0x2E :: Base64.encode [0]))])]

/-- The long literal is one. -/
theorem longLiteral_wf : longLiteral.Wf where
  int := .inr ⟨⟨List.cons_ne_nil _ _, fun c hc => by rw [List.eq_of_mem_replicate hc]; decide⟩,
    by decide⟩
  frac := nofun
  exp := nofun

/-- The long literal has bytes. -/
theorem longLiteral_utf8 : ∃ b, longLiteral.text.utf8 = some b ∧ b ≠ [] := by
  have htext : longLiteral.text = List.replicate 4301 0x31 := by
    rw [Numeral.text, longLiteral]
    exact List.append_nil _
  have hscalar : longLiteral.text.IsScalar := by
    intro c hc
    rw [htext] at hc
    rw [List.eq_of_mem_replicate hc]
    decide
  have hb := Text.utf8_eq_some.2 ⟨hscalar, rfl⟩
  obtain ⟨c, t, hc, -⟩ := longLiteral_wf.text_cons
  refine ⟨_, hb, ne_nil_of_utf8 (encodeUtf8_eq_ok.2 hb) ?_⟩
  rw [hc]
  exact List.cons_ne_nil c t

/-- The header of the sample holds an integer too long. -/
theorem headerOverflows_overflowing : HeaderOverflows overflowing := by
  obtain ⟨b, hb, hne⟩ := longLiteral_utf8
  have hsplit : Text.splitOn 0x2E (Base64.encode b ++ 0x2E :: Base64.encode [0] ++
      0x2E :: Base64.encode [0]) = _ := splitOn_signature b [0] [0]
  have hsegment : decodeBase64url (Base64.encode [0]) [] = .ok [0] := decodeBase64url_encode (by simp) []
  have htext : headerText overflowing = some longLiteral.text := by
    rw [overflowing, hb]
    exact headerText_eq rfl rfl hsplit (decodeBase64url_encode hne []) hsegment hsegment
      (decodeUtf8_encodeUtf8 (encodeUtf8_eq_ok.2 hb))
  have hlong : (defaultHooks (F := Decimal)).number longLiteral = .error (.valueError
      (lit "Exceeds the limit (4300 digits) for integer string conversion")) := by
    have hint : longLiteral.isInt = true := rfl
    have hlength : maxStrDigits < longLiteral.int.length := by
      rw [longLiteral, List.length_replicate]
      decide
    simp only [defaultHooks, hint, parseInt, if_pos hlength, if_true]
  exact ⟨_, _, htext, Json.loads_numeral_error longLiteral_wf hlong⟩

/-- The call raises a plain `ValueError`, and is not counted. -/
theorem not_fullyAccounted_overflowing : ¬FullyAccounted echo [] [overflowing] := by
  intro h
  obtain ⟨message, hverify⟩ := verify_overflows echo [] headerOverflows_overflowing
  obtain ⟨-, -, hexits⟩ := h _ (List.prefix_refl _)
  rcases hexits overflowing (List.mem_singleton_self _) with ⟨kid, hok⟩ | ⟨error, herror, reason, -, text, rfl⟩
  · rw [hverify] at hok
    cases hok
  · rw [hverify] at herror
    cases herror

end Envelope

end Lakehouse

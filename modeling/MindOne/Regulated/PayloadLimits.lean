import MindOne.Coordinator.Requests
import MindOne.Regulated.Binding

/-!
# The sizes that a sealed request passes through

The client bounds the plaintext, the protocol the ciphertext and the coordinator
the printed envelope. A text of base64 is a third longer than its bytes, so the
bound on the plaintext does not keep the printed envelope within the last one.
-/

namespace MindOne.Regulated

open CheckedArithmetic MindOne.Coordinator MindOne.Stream

/-- The opaque envelope that `create_regulated_job` stores. -/
def opaqueEnvelope (envelope : RegulatedEnvelope) : ApiResult String := do
  rejectIf ((utf8 envelope.json).length > 900000)
    (.badRequest "invalid_regulated_job" "Regulated envelope 超过任务载荷上限")
  return envelope.json

section Coordinator
variable {env : Services} {db : Db} {principal : Principal} {request : CreateRegulatedJobRequest}
  {requestFingerprint : String} {jobId : Uuid} {nowUtc : Int}
  {outcome : Db × CreateJobResponse} {envelope : RegulatedEnvelope}

/-- A route is consumed by an envelope of a bounded size only. -/
theorem opaqueEnvelope_of_consumeRoute (hcarried : request.opaqueEnvelope = envelope.json)
    (h : consumeRoute env db principal request requestFingerprint jobId nowUtc = .ok outcome) :
    opaqueEnvelope envelope = .ok request.opaqueEnvelope := by
  simp only [consumeRoute, bind_eq_ok] at h
  obtain ⟨_, _, h⟩ := h
  split at h
  · cases h
  · split at h
    · cases h
    · simp only [bind_eq_ok, rejectIf_eq_ok, exists_const] at h
      obtain ⟨_, _, _, _, _, _, _, _, _, _, hsize, _⟩ := h
      rw [hcarried] at hsize ⊢
      rw [opaqueEnvelope, rejectIf_of_not _ hsize]
      rfl

end Coordinator

section Sizes
variable {primitives : Primitives}
  {fromEnvironment : AttestationProvider → Except ClientVerificationError ClientEvidenceVerifier}

/-- What admits a sealed request: the checks of the protocol, the size of its printed
form, and that its texts are read back as the bytes that were sealed. -/
structure Admissible (session : RegulatedClientSession primitives) (rng : OsRng)
    (route : VerifiedRegulatedRoute primitives fromEnvironment) (plaintext : List UInt8)
    (envelope : RegulatedEnvelope) : Prop where
  valid : envelope.validate = .ok ()
  stored : opaqueEnvelope envelope = .ok envelope.json
  decoded : ∃ peer sealed,
    decodePublicKey route.response.attestation.ephemeralPublicKey = .ok peer ∧
    sealing rng session.privateKey peer .request route plaintext = .ok sealed ∧
    decodeBase64url "nonce" envelope.nonce 12 12 = .ok sealed.nonce.toList ∧
    decodeBase64url "ciphertext" envelope.ciphertext 17 900000 =
      .ok (sealed.ciphertext primitives)
  neverTooLong : ∀ (value : String) (bytes : List UInt8),
    Base64.decode Base64.urlSafe value.toList = some bytes → 17 ≤ bytes.length →
    bytes.length ≤ 900000 →
      decodeBase64url "ciphertext" value 17 900000 = .ok bytes

/-- A text whose bytes are of an allowed length passes the check on the text. -/
theorem decodeBase64url_of_decode {field value : String} {minimum maximum : Nat}
    {bytes : List UInt8} (h : Base64.decode Base64.urlSafe value.toList = some bytes)
    (hpositive : 1 ≤ bytes.length) (hmin : minimum ≤ bytes.length)
    (hmax : bytes.length ≤ maximum) :
    decodeBase64url field value minimum maximum = .ok bytes := by
  have hencode := Base64.encode_of_decode h
  refine decodeBase64url_eq_ok.mpr ⟨?_, hencode, hmin, hmax⟩
  rintro rfl
  have hempty := congrArg List.length hencode
  rw [Base64.length_encode, String.toList_empty, List.length_nil] at hempty
  omega

theorem sealing_eq_ok {rng : OsRng} {privateKey peer : Bytes 32} {direction : EnvelopeDirection}
    {route : VerifiedRegulatedRoute primitives fromEnvironment} {plaintext : List UInt8}
    {sealed : Sealing} (h : sealing rng privateKey peer direction route plaintext = .ok sealed) :
    1 ≤ plaintext.length ∧ plaintext.length ≤ 899000 ∧ sealed.nonce = rng.nonce ∧
      sealed.plaintext = plaintext := by
  simp only [sealing, bind_eq_ok, rejectIf_eq_ok, exists_const, not_or, not_lt] at h
  obtain ⟨⟨hempty, hbound⟩, _, _, _, _, hresult⟩ := h
  cases hresult
  exact ⟨List.length_pos_iff.mpr hempty, hbound, rfl, rfl⟩

/-- The printed form of a sealed request. -/
theorem utf8ByteSize_json_envelopeOf {sender : Bytes 32}
    {route : VerifiedRegulatedRoute primitives fromEnvironment} {sealed : Sealing}
    (hvalid : (envelopeOf sender .request route sealed).validate = .ok ()) :
    (utf8 (envelopeOf sender .request route sealed).json).length =
      ((sealed.ciphertext primitives).length * 4 + 2) / 3 + 375 := by
  have hform := fixedForm_of_validate hvalid
  have hprinted := hform.utf8ByteSize_json
  have hencode : Base64.encode Base64.urlSafe (sealed.ciphertext primitives) =
      (envelopeOf sender .request route sealed).ciphertext.toList := String.toList_ofList.symm
  have hsize : (envelopeOf sender .request route sealed).ciphertext.utf8ByteSize =
      ((sealed.ciphertext primitives).length * 4 + 2) / 3 := by
    rw [utf8ByteSize_of_bare (bare_encode hencode), ← hencode, Base64.length_encode]
  have hdirection : (envelopeOf sender .request route sealed).direction.asStr.utf8ByteSize = 7 :=
    rfl
  rw [hsize, hdirection] at hprinted
  have hlength : (utf8 (envelopeOf sender .request route sealed).json).length =
      (envelopeOf sender .request route sealed).json.utf8ByteSize := rfl
  omega

variable {session : RegulatedClientSession primitives} {rng : OsRng}
  {route : VerifiedRegulatedRoute primitives fromEnvironment} {plaintext : List UInt8}
  {envelope : RegulatedEnvelope}

theorem encryptRequest_eq_ok (h : session.encryptRequest rng route plaintext = .ok envelope) :
    ∃ peer sealed,
      decodePublicKey route.response.attestation.ephemeralPublicKey = .ok peer ∧
      sealing rng session.privateKey peer .request route plaintext = .ok sealed ∧
      envelope = envelopeOf session.publicKey .request route sealed := by
  simp only [RegulatedClientSession.encryptRequest, sealMessage, bind_eq_ok] at h
  obtain ⟨peer, hpeer, sealed, hsealed, hresult⟩ := h
  cases hresult
  exact ⟨peer, sealed, hpeer, hsealed, rfl⟩

/-- What is sealed passes the checks of the protocol, whatever its length. -/
theorem validate_of_encryptRequest
    (htag : ∀ key nonce aad message,
      (primitives.sealInPlaceAppendTag key nonce aad message).length = message.length + 16)
    (h : session.encryptRequest rng route plaintext = .ok envelope) :
    envelope.validate = .ok () := by
  obtain ⟨peer, sealed, _, hsealed, rfl⟩ := encryptRequest_eq_ok h
  obtain ⟨hpositive, hbound, hnonce, rfl⟩ := sealing_eq_ok hsealed
  exact validate_envelopeOf route .request (htag _ _ _ _) session.publicKey_ne_zero
    (hnonce ▸ rng.nonce_ne_zero) hpositive hbound

/-- The size check of the coordinator, in the unit of the client. -/
theorem opaqueEnvelope_of_encryptRequest
    (htag : ∀ key nonce aad message,
      (primitives.sealInPlaceAppendTag key nonce aad message).length = message.length + 16)
    (h : session.encryptRequest rng route plaintext = .ok envelope) :
    opaqueEnvelope envelope = .ok envelope.json ↔ plaintext.length ≤ 674702 := by
  have hvalid := validate_of_encryptRequest htag h
  obtain ⟨peer, sealed, _, hsealed, rfl⟩ := encryptRequest_eq_ok h
  obtain ⟨_, _, _, rfl⟩ := sealing_eq_ok hsealed
  have hsize := utf8ByteSize_json_envelopeOf hvalid
  have hlength : (sealed.ciphertext primitives).length = sealed.plaintext.length + 16 :=
    htag _ _ _ _
  rw [hlength] at hsize
  constructor
  · intro hstored
    simp only [opaqueEnvelope, bind_eq_ok, rejectIf_eq_ok, exists_const, not_lt] at hstored
    omega
  · intro hfits
    rw [opaqueEnvelope, rejectIf_of_not _ (by omega)]
    rfl

/-- A sealed request is admitted exactly up to the length whose printed form still fits. -/
theorem encryptRequest_admissible_iff
    (htag : ∀ key nonce aad message,
      (primitives.sealInPlaceAppendTag key nonce aad message).length = message.length + 16)
    (h : session.encryptRequest rng route plaintext = .ok envelope) :
    Admissible session rng route plaintext envelope ↔ plaintext.length ≤ 674702 := by
  have hvalid := validate_of_encryptRequest htag h
  have hstored := opaqueEnvelope_of_encryptRequest htag h
  constructor
  · intro hadmissible
    exact hstored.mp hadmissible.stored
  · intro hfits
    obtain ⟨peer, sealed, hpeer, hsealed, rfl⟩ := encryptRequest_eq_ok h
    obtain ⟨hpositive, hbound, _, rfl⟩ := sealing_eq_ok hsealed
    have hlength : (sealed.ciphertext primitives).length = sealed.plaintext.length + 16 :=
      htag _ _ _ _
    refine ⟨hvalid, hstored.mpr hfits, ⟨peer, sealed, hpeer, hsealed, ?_, ?_⟩, ?_⟩
    · refine decodeBase64url_of_decode ?_ ?_ sealed.nonce.length_toList.ge
        sealed.nonce.length_toList.le
      · rw [envelopeOf, String.toList_ofList, Base64.decode_encode]
      · rw [sealed.nonce.length_toList]
        decide
    · refine decodeBase64url_of_decode ?_ (by omega) (by omega) (by omega)
      rw [envelopeOf, String.toList_ofList, Base64.decode_encode]
    · intro value bytes hdecode hmin hmax
      exact decodeBase64url_of_decode hdecode (by omega) hmin hmax

end Sizes

section Sample

def sampleOsRng : OsRng where
  draws _ := ⟨List.replicate 12 1, by decide⟩
  exists_nonzero := ⟨0, by decide⟩

theorem length_sampleSeal (key : List UInt8) (nonce : Bytes 12) (aad message : List UInt8) :
    (samplePrimitives.sealInPlaceAppendTag key nonce aad message).length =
      message.length + 16 := by
  simp only [samplePrimitives]
  split
  · rename_i hknown
    have hmessage : message = sampleSealing.plaintext := congrArg Sealing.plaintext hknown
    rw [hmessage]
    decide
  · simp

theorem exists_sampleRequest {plaintext : List UInt8} (hpositive : 1 ≤ plaintext.length)
    (hbound : plaintext.length ≤ 899000) :
    ∃ envelope, sampleSession.encryptRequest sampleOsRng sampleRoute plaintext =
      .ok envelope := by
  have hheld : decodePublicKey sampleRoute.response.attestation.ephemeralPublicKey =
      .ok (samplePrimitives.mulBaseClamped sampleHolder) :=
    decodePublicKey_of_printed String.toList_ofList.symm (by decide)
  obtain ⟨_, envelope, _, hsealed, _⟩ :=
    encryptRequest_arrives symbolic_sample hheld sampleOsRng hpositive hbound
  exact ⟨envelope, hsealed⟩

/-- The longest plaintext that fits. -/
theorem encryptRequest_admissible_sample :
    ∃ envelope, sampleSession.encryptRequest sampleOsRng sampleRoute
        (List.replicate 674702 97) = .ok envelope ∧
      Admissible sampleSession sampleOsRng sampleRoute (List.replicate 674702 97) envelope := by
  obtain ⟨envelope, hsealed⟩ := @exists_sampleRequest (List.replicate 674702 97)
    (by rw [List.length_replicate]; decide) (by rw [List.length_replicate]; decide)
  exact ⟨envelope, hsealed, (encryptRequest_admissible_iff length_sampleSeal hsealed).mpr
    (by rw [List.length_replicate])⟩

/-- One byte more is sealed and passes the checks of the protocol, but no coordinator
consumes a route for it. -/
theorem encryptRequest_exceeds_payload :
    ∃ envelope, sampleSession.encryptRequest sampleOsRng sampleRoute
        (List.replicate 674703 97) = .ok envelope ∧
      envelope.validate = .ok () ∧
      (∀ env db principal request requestFingerprint jobId nowUtc outcome,
        request.opaqueEnvelope = envelope.json →
          consumeRoute env db principal request requestFingerprint jobId nowUtc ≠ .ok outcome) ∧
      ¬ Admissible sampleSession sampleOsRng sampleRoute (List.replicate 674703 97) envelope := by
  obtain ⟨envelope, hsealed⟩ := @exists_sampleRequest (List.replicate 674703 97)
    (by rw [List.length_replicate]; decide) (by rw [List.length_replicate]; decide)
  have hlong : ¬ (List.replicate 674703 (97 : UInt8)).length ≤ 674702 := by
    rw [List.length_replicate]
    decide
  have hstored := (opaqueEnvelope_of_encryptRequest length_sampleSeal hsealed).not.mpr hlong
  refine ⟨envelope, hsealed, validate_of_encryptRequest length_sampleSeal hsealed, ?_, ?_⟩
  · intro env db principal request requestFingerprint jobId nowUtc outcome hcarried hconsumed
    exact hstored (hcarried ▸ opaqueEnvelope_of_consumeRoute hcarried hconsumed)
  · intro hadmissible
    exact hstored hadmissible.stored

end Sample

end MindOne.Regulated

import MindOne.Regulated.Evidence
import MindOne.Submission.Errors

/-!
# The end-to-end encryption of regulated jobs

The consumer verifies a prepared route, seals its request for the attested key and
opens the result. The key of a message is derived from the agreement of the two key
pairs and from the associated data, which is computed from the route on both sides.
-/

namespace MindOne.Regulated

open CheckedArithmetic MindOne.Stream MindOne.Submission

/-- The functions of the cryptographic libraries. A digest and a shared secret are
byte strings without a fixed length, so that they can stand for what they were
computed from. -/
structure Primitives where
  mulBaseClamped : Bytes 32 → Bytes 32
  mulClamped : (point scalar : Bytes 32) → List UInt8
  sha256 : List UInt8 → List UInt8
  sha512 : List UInt8 → List UInt8
  /-- HKDF-SHA256: extraction with a salt, then expansion to one key. -/
  hkdf : (salt secret info : List UInt8) → List UInt8
  sealInPlaceAppendTag : (key : List UInt8) → (nonce : Bytes 12) → (aad plaintext : List UInt8) →
    List UInt8
  openInPlace : (key : List UInt8) → (nonce : Bytes 12) → (aad ciphertext : List UInt8) →
    Option (List UInt8)

/-- The draws of the system's generator, not all of which are zero. -/
structure OsRng where
  draws : Nat → Bytes 12
  exists_nonzero : ∃ i, draws i ≠ Bytes.zero 12

/-- The loop over draws ends with the first one that is not zero. -/
def OsRng.nonce (rng : OsRng) : Bytes 12 := rng.draws (Nat.find rng.exists_nonzero)

theorem OsRng.nonce_ne_zero (rng : OsRng) : rng.nonce ≠ Bytes.zero 12 :=
  Nat.find_spec rng.exists_nonzero

theorem OsRng.nonce_of_first {rng : OsRng} (h : rng.draws 0 ≠ Bytes.zero 12) :
    rng.nonce = rng.draws 0 := by
  rw [OsRng.nonce, (Nat.find_eq_zero rng.exists_nonzero).mpr h]

def attestation (message : String) : CliError := ⟨.attestation, message⟩

def decodePublicKey (value : String) : CliResult (Bytes 32) := do
  let decoded ← okOr (attestation "X25519 公钥编码无效") (hexDecode value.toList)
  let key ← okOr (attestation "X25519 公钥长度无效") (Bytes.tryInto 32 decoded)
  rejectIf (key = Bytes.zero 32) (attestation "X25519 公钥为全零值")
  return key

structure RegulatedRouteAttestation where
  reportId : Uuid
  challengeId : Uuid
  nodeId : Uuid
  modelInstanceId : Uuid
  provider : AttestationProvider
  evidenceKind : AttestationEvidenceKind
  evidence : String
  evidenceSha256 : String
  challengeNonce : String
  reportData : String
  teeMeasurement : String
  sandboxPolicyHash : String
  runtimeBinaryHash : String
  modelWeightsHash : String
  ephemeralPublicKey : String
  issuedAt : OffsetDateTime
  verifiedAt : OffsetDateTime
  expiresAt : OffsetDateTime
  collateralExpiresAt : OffsetDateTime

structure PrepareRegulatedJobResponse where
  routeId : Uuid
  modelId : Uuid
  modelInstanceId : Uuid
  nodeId : Uuid
  expiresAt : OffsetDateTime
  idempotentReplay : Bool
  attestation : RegulatedRouteAttestation

section Verification

/-- 24 hours. -/
def maxReportAge : Int := 24 * 3600 * 1000000000

/-- 30 seconds. -/
def maxClockSkew : Int := 30 * 1000000000

def RegulatedRouteAttestation.validateStaticFields (self : RegulatedRouteAttestation) :
    CliResult Unit := do
  [("evidence_sha256", self.evidenceSha256, 64), ("report_data", self.reportData, 128),
    ("sandbox_policy_hash", self.sandboxPolicyHash, 64),
    ("runtime_binary_hash", self.runtimeBinaryHash, 64),
    ("model_weights_hash", self.modelWeightsHash, 64),
    ("ephemeral_public_key", self.ephemeralPublicKey, 64)].forM fun (name, value, length) =>
      rejectIf (value.utf8ByteSize ≠ length ∨ value.toList.all isLowerHex = false)
        (Regulated.attestation ("prepared route 的 " ++ name ++ " 格式无效"))
  rejectIf (¬ (64 ≤ self.teeMeasurement.utf8ByteSize ∧ self.teeMeasurement.utf8ByteSize ≤ 128) ∨
      self.teeMeasurement.utf8ByteSize % 2 ≠ 0 ∨
      self.teeMeasurement.toList.all isLowerHex = false)
    (Regulated.attestation "prepared route 的 TEE measurement 格式无效")
  rejectIf (self.ephemeralPublicKey.toList.all (· == '0') = true)
    (Regulated.attestation "prepared route 的 TEE 公钥不能是全零值")

def RegulatedRouteAttestation.binding (self : RegulatedRouteAttestation) (nonce : List UInt8) :
    AttestationReportBinding where
  challengeId := self.challengeId
  nodeId := self.nodeId
  modelInstanceId := self.modelInstanceId
  nonce := nonce
  sandboxPolicyHash := self.sandboxPolicyHash
  runtimeBinaryHash := self.runtimeBinaryHash
  modelWeightsHash := self.modelWeightsHash
  ephemeralPublicKey := self.ephemeralPublicKey
  keyOrigin := .teeRuntime

def RegulatedRouteAttestation.verificationInput (self : RegulatedRouteAttestation)
    (now : OffsetDateTime) : ClientVerificationInput where
  evidenceKind := self.evidenceKind
  evidenceBase64 := self.evidence
  expectedReportData := self.reportData
  sandboxPolicyHash := self.sandboxPolicyHash
  runtimeBinaryHash := self.runtimeBinaryHash
  expectedMeasurement := self.teeMeasurement
  now := now

variable (primitives : Primitives)
  (fromEnvironment : AttestationProvider → Except ClientVerificationError ClientEvidenceVerifier)

/-- The checks of `verify_prepared_route` at an instant. -/
def checkPreparedRoute (now : OffsetDateTime) (response : PrepareRegulatedJobResponse) :
    CliResult Unit := do
  let report := response.attestation
  rejectIf (response.modelInstanceId ≠ report.modelInstanceId ∨ response.nodeId ≠ report.nodeId ∨
      response.expiresAt.unixTimestampNanos ≤ now.unixTimestampNanos ∨
      report.expiresAt.unixTimestampNanos < response.expiresAt.unixTimestampNanos ∨
      report.verifiedAt.unixTimestampNanos < report.issuedAt.unixTimestampNanos ∨
      now.unixTimestampNanos + maxClockSkew < report.verifiedAt.unixTimestampNanos ∨
      report.verifiedAt.unixTimestampNanos < now.unixTimestampNanos - maxReportAge ∨
      report.expiresAt.unixTimestampNanos ≤ now.unixTimestampNanos ∨
      report.collateralExpiresAt.unixTimestampNanos ≤ now.unixTimestampNanos ∨
      report.provider = .none ∨ report.evidenceKind.matchesProvider report.provider = false)
    (attestation "prepared route 的报告身份或时效无效")
  report.validateStaticFields
  let evidence ← okOr (attestation "prepared route 的硬件 evidence 编码无效")
    (Base64.decodePadded Base64.standard report.evidence.toList)
  rejectIf (evidence = [] ∨ 576 * 1024 < evidence.length)
    (attestation "prepared route 的硬件 evidence 为空或超过限制")
  rejectIf (hexEncode (primitives.sha256 evidence) ≠ report.evidenceSha256.toList)
    (attestation "prepared route 的硬件 evidence 摘要不匹配")
  let nonce ← okOr (attestation "prepared route 的 challenge nonce 无效")
    (Base64.decode Base64.urlSafe report.challengeNonce.toList)
  let localReportData ← (attestationReportData primitives.sha512 (report.binding nonce)).mapError
    fun error => attestation error.text
  rejectIf (hexEncode localReportData ≠ report.reportData.toList)
    (attestation "prepared route 的 REPORTDATA 与节点、模型、runtime 或 TEE 公钥绑定不一致")
  let verifier ← (fromEnvironment report.provider).mapError fun error => attestation error.text
  let claims ← (verifier.verify (report.verificationInput now)).mapError
    fun error => attestation error.text
  rejectIf (claims.teeMeasurement ≠ report.teeMeasurement ∨
      claims.collateralExpiresAt.unixTimestampNanos ≠
        report.collateralExpiresAt.unixTimestampNanos)
    (attestation "本机 verifier 结论与 prepared route 报告不一致")

/-- A response that was checked once. -/
structure VerifiedRegulatedRoute where
  response : PrepareRegulatedJobResponse
  verified : ∃ now, checkPreparedRoute primitives fromEnvironment now response = .ok ()

def verifyPreparedRoute (now : OffsetDateTime) (response : PrepareRegulatedJobResponse) :
    CliResult (VerifiedRegulatedRoute primitives fromEnvironment) :=
  match h : checkPreparedRoute primitives fromEnvironment now response with
  | .ok () => .ok ⟨response, now, h⟩
  | .error error => .error error

end Verification

section Messages

/-- A session holds the key pair that it drew. -/
structure RegulatedClientSession (primitives : Primitives) where
  privateKey : Bytes 32
  publicKey : Bytes 32
  publicKey_eq : publicKey = primitives.mulBaseClamped privateKey
  publicKey_ne_zero : publicKey ≠ Bytes.zero 32

def RegulatedClientSession.new (primitives : Primitives) (random : Bytes 32) :
    CliResult (RegulatedClientSession primitives) :=
  if h : primitives.mulBaseClamped random = Bytes.zero 32 then
    .error (attestation "消费者临时 X25519 公钥意外为全零值")
  else .ok ⟨random, primitives.mulBaseClamped random, rfl, h⟩

variable {primitives : Primitives}
  {fromEnvironment : AttestationProvider → Except ClientVerificationError ClientEvidenceVerifier}

def deriveKey (primitives : Primitives) (privateKey peerPublicKey : Bytes 32)
    (aad : List UInt8) : CliResult (List UInt8) := do
  let shared := primitives.mulClamped peerPublicKey privateKey
  rejectIf (shared = (Bytes.zero 32).toList)
    (attestation "X25519 共享秘密为全零值，拒绝 Regulated 会话")
  return primitives.hkdf (primitives.sha256 aad) shared
    (utf8 "MindOne Regulated E2EE key v1\x00" ++ aad)

def routeAad (direction : EnvelopeDirection)
    (route : VerifiedRegulatedRoute primitives fromEnvironment) : CliResult (List UInt8) :=
  (regulatedAad direction route.response.routeId route.response.attestation.reportId
    route.response.modelInstanceId route.response.attestation.modelWeightsHash).mapError
    fun error => attestation error.text

/-- What a call of the cipher seals, and under what. -/
structure Sealing where
  key : List UInt8
  nonce : Bytes 12
  aad : List UInt8
  plaintext : List UInt8
  deriving DecidableEq

def Sealing.ciphertext (primitives : Primitives) (self : Sealing) : List UInt8 :=
  primitives.sealInPlaceAppendTag self.key self.nonce self.aad self.plaintext

/-- The call of the cipher that `seal` makes. -/
def sealing (rng : OsRng) (privateKey peerPublicKey : Bytes 32) (direction : EnvelopeDirection)
    (route : VerifiedRegulatedRoute primitives fromEnvironment) (plaintext : List UInt8) :
    CliResult Sealing := do
  rejectIf (plaintext = [] ∨ 899000 < plaintext.length)
    (attestation "Regulated 明文为空或超过本地加密上限")
  let aad ← routeAad direction route
  let key ← deriveKey primitives privateKey peerPublicKey aad
  return ⟨key, rng.nonce, aad, plaintext⟩

/-- The envelope around what was sealed. -/
def envelopeOf (senderPublicKey : Bytes 32) (direction : EnvelopeDirection)
    (route : VerifiedRegulatedRoute primitives fromEnvironment) (sealed : Sealing) :
    RegulatedEnvelope where
  version := regulatedEnvelopeVersion
  algorithm := regulatedAlgorithm
  direction := direction
  routeId := route.response.routeId
  reportId := route.response.attestation.reportId
  modelInstanceId := route.response.modelInstanceId
  senderPublicKey := String.ofList (hexEncode senderPublicKey.toList)
  nonce := String.ofList (Base64.encode Base64.urlSafe sealed.nonce.toList)
  ciphertext := String.ofList (Base64.encode Base64.urlSafe (sealed.ciphertext primitives))

/-- `seal`. -/
def sealMessage (rng : OsRng) (privateKey peerPublicKey senderPublicKey : Bytes 32)
    (direction : EnvelopeDirection) (route : VerifiedRegulatedRoute primitives fromEnvironment)
    (plaintext : List UInt8) : CliResult RegulatedEnvelope := do
  let sealed ← sealing rng privateKey peerPublicKey direction route plaintext
  return envelopeOf senderPublicKey direction route sealed

/-- `open`. -/
def openMessage (privateKey peerPublicKey : Bytes 32) (direction : EnvelopeDirection)
    (route : VerifiedRegulatedRoute primitives fromEnvironment) (envelope : RegulatedEnvelope) :
    CliResult (List UInt8) := do
  let aad ← routeAad direction route
  let key ← deriveKey primitives privateKey peerPublicKey aad
  let nonceBytes ← okOr (attestation "Regulated 结果 nonce 编码无效")
    (Base64.decode Base64.urlSafe envelope.nonce.toList)
  let nonce ← okOr (attestation "Regulated 结果 nonce 长度无效") (Bytes.tryInto 12 nonceBytes)
  let ciphertext ← okOr (attestation "Regulated 结果 ciphertext 编码无效")
    (Base64.decode Base64.urlSafe envelope.ciphertext.toList)
  okOr (attestation "Regulated 结果认证失败，可能被篡改或 AAD 不匹配")
    (primitives.openInPlace key nonce aad ciphertext)

def RegulatedClientSession.encryptRequest (self : RegulatedClientSession primitives)
    (rng : OsRng) (route : VerifiedRegulatedRoute primitives fromEnvironment)
    (plaintext : List UInt8) : CliResult RegulatedEnvelope := do
  let peer ← decodePublicKey route.response.attestation.ephemeralPublicKey
  sealMessage rng self.privateKey peer self.publicKey .request route plaintext

def RegulatedClientSession.decryptResult (self : RegulatedClientSession primitives)
    (route : VerifiedRegulatedRoute primitives fromEnvironment) (envelope : RegulatedEnvelope) :
    CliResult (List UInt8) := do
  envelope.validate.mapError fun error => attestation error.text
  let report := route.response.attestation
  rejectIf (envelope.direction ≠ .result ∨ envelope.routeId ≠ route.response.routeId ∨
      envelope.reportId ≠ report.reportId ∨
      envelope.modelInstanceId ≠ route.response.modelInstanceId ∨
      envelope.senderPublicKey ≠ report.ephemeralPublicKey)
    (attestation "Regulated 结果 envelope 与 prepared route 或硬件报告不匹配")
  let peer ← decodePublicKey envelope.senderPublicKey
  openMessage self.privateKey peer .result route envelope

/-- The step from a finished job to the answer of the model. -/
def decodeRegulatedJobResult {α : Type} (envelopeFromStr : String → Option RegulatedEnvelope)
    (fromSlice : List UInt8 → Except String α) (resultCiphertext : Option String)
    (route : VerifiedRegulatedRoute primitives fromEnvironment)
    (session : RegulatedClientSession primitives) : CliResult α := do
  let encoded ← okOr (attestation "Regulated 任务完成但缺少 opaque 结果") resultCiphertext
  let envelope ← okOr (attestation "协调器返回的 opaque 结果不是 Regulated envelope")
    (envelopeFromStr encoded)
  let plaintext ← session.decryptResult route envelope
  (fromSlice plaintext).mapError fun error =>
    attestation ("TEE 结果明文不是合法 JSON：" ++ error)

end Messages

end MindOne.Regulated

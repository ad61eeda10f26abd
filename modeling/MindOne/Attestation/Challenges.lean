import MindOne.Coordinator.Requests
import MindOne.Regulated.E2ee

/-!
# Attestation challenges at the coordinator

A device asks for a challenge for its published instance and submits hardware
evidence for it. The coordinator has the evidence verified, writes a report and
raises the trust of the node. A challenge is read before it is inserted, so other
requests may come in between; a submission holds the row of its challenge from
its first read to its commit.
-/

namespace MindOne.Attestation

open CheckedArithmetic Coordinator KeyedTable MindOne.Stream Regulated

section Verifier

inductive VerificationError where
  | unavailable | programChanged | spawn | timeout | exitFailure | outputTooLarge | invalidOutput
  | providerMismatch
  deriving DecidableEq, Repr

def VerificationError.auditCode : VerificationError → String
  | .unavailable => "verifier_unavailable"
  | .programChanged => "verifier_program_changed"
  | .spawn => "verifier_spawn_failed"
  | .timeout => "verifier_timeout"
  | .exitFailure => "verifier_exit_failed"
  | .outputTooLarge => "verifier_output_too_large"
  | .invalidOutput => "verifier_output_invalid"
  | .providerMismatch => "verifier_provider_mismatch"

def adapterSchema : String := "mindone.attestation.verifier.v1"

structure AdapterOutput where
  schemaVersion : String
  verifierName : String
  provider : AttestationProvider
  evidenceKind : AttestationEvidenceKind
  verified : Bool
  reportData : String
  teeMeasurement : String
  signatureVerified : Bool
  certificateChainVerified : Bool
  tcbCurrent : Bool
  collateralCurrent : Bool
  collateralExpiresAtUnix : Int

structure VerificationClaims where
  verifierName : String
  provider : AttestationProvider
  evidenceKind : AttestationEvidenceKind
  verified : Bool
  reportData : String
  teeMeasurement : String
  signatureVerified : Bool
  certificateChainVerified : Bool
  tcbCurrent : Bool
  collateralCurrent : Bool
  collateralExpiresAt : OffsetDateTime

def parseAdapterOutput (provider : AttestationProvider) (evidenceKind : AttestationEvidenceKind)
    (output : AdapterOutput) : Except VerificationError VerificationClaims := do
  rejectIf (output.schemaVersion ≠ adapterSchema ∨ output.verifierName = "" ∨
      128 < output.verifierName.utf8ByteSize ∨
      (output.verifierName.toList.all fun c => decide (c.toNat < 128)) = false ∨
      output.reportData.utf8ByteSize ≠ 128 ∨ output.reportData.toList.all isLowerHex = false ∨
      ¬ (64 ≤ output.teeMeasurement.utf8ByteSize ∧ output.teeMeasurement.utf8ByteSize ≤ 128) ∨
      output.teeMeasurement.utf8ByteSize % 2 ≠ 0 ∨
      output.teeMeasurement.toList.all isLowerHex = false) .invalidOutput
  rejectIf (output.provider ≠ provider ∨ output.evidenceKind ≠ evidenceKind) .providerMismatch
  let collateralExpiresAt ← okOr .invalidOutput (fromUnixTimestamp output.collateralExpiresAtUnix)
  return {
    verifierName := output.verifierName
    provider := output.provider
    evidenceKind := output.evidenceKind
    verified := output.verified
    reportData := output.reportData
    teeMeasurement := output.teeMeasurement
    signatureVerified := output.signatureVerified
    certificateChainVerified := output.certificateChainVerified
    tcbCurrent := output.tcbCurrent
    collateralCurrent := output.collateralCurrent
    collateralExpiresAt }

structure HardwareAttestationConfig where
  verifierPath : Option String
  allowedPolicyHashes : List String
  allowedRuntimeHashes : List String
  allowedTeeMeasurements : List String

def HardwareAttestationConfig.deployable (self : HardwareAttestationConfig) : Prop :=
  self.verifierPath ≠ none ∧ self.allowedPolicyHashes ≠ [] ∧ self.allowedRuntimeHashes ≠ [] ∧
    self.allowedTeeMeasurements ≠ []

instance (config : HardwareAttestationConfig) : Decidable config.deployable :=
  inferInstanceAs (Decidable (_ ∧ _))

/-- The configuration, with the bounds that are checked when it is read; durations are
nanoseconds. -/
structure Config where
  attestationChallengeTtl : Int
  attestationReportTtl : Int
  amdSevSnpAttestation : HardwareAttestationConfig
  intelTdxAttestation : HardwareAttestationConfig
  challengeTtl_bounds : 30 * 1000000000 ≤ attestationChallengeTtl ∧
    attestationChallengeTtl ≤ 600 * 1000000000
  reportTtl_bounds : 60 * 1000000000 ≤ attestationReportTtl ∧
    attestationReportTtl ≤ 86400 * 1000000000

def providerConfig (config : Config) : AttestationProvider → Option HardwareAttestationConfig
  | .amdSevSnp => some config.amdSevSnpAttestation
  | .intelTdx => some config.intelTdxAttestation
  | .none => none

/-- The adapter is a program of its own; `answer` is what it printed this time, or why
it printed nothing. -/
def verify (config : Config) (provider : AttestationProvider)
    (evidenceKind : AttestationEvidenceKind) (answer : Except VerificationError AdapterOutput) :
    Except VerificationError VerificationClaims := do
  let _ ← okOr .unavailable ((providerConfig config provider).bind
    HardwareAttestationConfig.verifierPath)
  let output ← answer
  parseAdapterOutput provider evidenceKind output

def evaluateClaims (claims : VerificationClaims) (provider : AttestationProvider)
    (evidenceKind : AttestationEvidenceKind) (expectedReportData : String)
    (policy : HardwareAttestationConfig) (now : OffsetDateTime) : String :=
  if claims.provider ≠ provider ∨ claims.evidenceKind ≠ evidenceKind then
    "verifier_provider_mismatch"
  else if claims.reportData ≠ expectedReportData then "report_data_mismatch"
  else if claims.teeMeasurement ∉ policy.allowedTeeMeasurements then
    "tee_measurement_not_allowed"
  else if claims.signatureVerified = false then "signature_not_verified"
  else if claims.certificateChainVerified = false then "certificate_chain_not_verified"
  else if claims.tcbCurrent = false then "tcb_not_current"
  else if claims.collateralCurrent = false ∨
      claims.collateralExpiresAt.unixTimestampNanos ≤ now.unixTimestampNanos then
    "collateral_not_current"
  else if claims.verified = false then "verifier_rejected"
  else "verified"

/-- Every conclusion that the server checks. -/
structure Conclusive (claims : VerificationClaims) (expectedReportData : String)
    (policy : HardwareAttestationConfig) (now : OffsetDateTime) : Prop where
  reportData : claims.reportData = expectedReportData
  teeMeasurement : claims.teeMeasurement ∈ policy.allowedTeeMeasurements
  signatureVerified : claims.signatureVerified = true
  certificateChainVerified : claims.certificateChainVerified = true
  tcbCurrent : claims.tcbCurrent = true
  collateralCurrent : claims.collateralCurrent = true
  collateralExpiresAt : now.unixTimestampNanos < claims.collateralExpiresAt.unixTimestampNanos
  verified : claims.verified = true

theorem conclusive_of_verified {claims : VerificationClaims} {provider : AttestationProvider}
    {evidenceKind : AttestationEvidenceKind} {expectedReportData : String}
    {policy : HardwareAttestationConfig} {now : OffsetDateTime}
    (h : evaluateClaims claims provider evidenceKind expectedReportData policy now = "verified") :
    Conclusive claims expectedReportData policy now := by
  unfold evaluateClaims at h
  repeat' (split at h; · exact absurd h (by decide))
  rename_i _ hdata hmeasurement hsignature hchain htcb hcollateral hverified
  rw [not_or] at hcollateral
  exact ⟨not_not.mp hdata, not_not.mp hmeasurement, Bool.not_eq_false _ ▸ hsignature,
    Bool.not_eq_false _ ▸ hchain, Bool.not_eq_false _ ▸ htcb,
    Bool.not_eq_false _ ▸ hcollateral.1, Int.not_le.mp hcollateral.2,
    Bool.not_eq_false _ ▸ hverified⟩

end Verifier

section Rows

structure TrustNode where
  id : Uuid
  userId : Uuid
  nodeAlias : String
  deviceKeyId : Option Uuid
  trustLevel : TrustLevel
  attestationReportId : Option Uuid
  trustExpiresAt : Option OffsetDateTime

/-- A row of `model_instances` with the columns of its model. -/
structure PublishedInstance where
  id : Uuid
  nodeId : Uuid
  modelId : Uuid
  status : InstanceStatus
  weightsHash : String

/-- What an insert of a challenge binds. -/
structure NewChallenge where
  id : Uuid
  userId : Uuid
  nodeId : Uuid
  modelInstanceId : Uuid
  provider : AttestationProvider
  nonce : Bytes 32
  nonceHash : String
  sandboxPolicyHash : String
  runtimeBinaryHash : String
  modelWeightsHash : String
  ephemeralPublicKey : String
  keyOrigin : AttestationKeyOrigin
  reportData : String
  expiresAt : OffsetDateTime

/-- A row of `attestation_challenges`. -/
structure AttestationChallenge extends NewChallenge where
  status : ReportStatus
  createdAt : OffsetDateTime
  consumedAt : Option OffsetDateTime

/-- A row of `attestation_reports`. -/
structure AttestationReport where
  id : Uuid
  nodeId : Uuid
  provider : AttestationProvider
  nonceHash : String
  policyHash : String
  runtimeHash : String
  modelHash : String
  issuedAt : OffsetDateTime
  verifiedAt : Option OffsetDateTime
  expiresAt : OffsetDateTime
  status : ReportStatus
  challengeId : Uuid
  modelInstanceId : Uuid
  evidenceKind : AttestationEvidenceKind
  evidenceSha256 : String
  evidenceBase64 : String
  reportData : String
  teeMeasurement : Option String
  ephemeralPublicKey : String
  keyOrigin : AttestationKeyOrigin
  verifierName : String
  signatureVerified : Bool
  certificateChainVerified : Bool
  tcbCurrent : Bool
  collateralCurrent : Bool
  collateralExpiresAt : Option OffsetDateTime
  verdictReason : String

structure TrustDb where
  now : OffsetDateTime
  nodes : Table TrustNode.id
  instances : Table PublishedInstance.id
  challenges : Table (fun challenge : AttestationChallenge => challenge.id)
  reports : Table AttestationReport.id
  /-- Challenges that have been drawn but not yet inserted. -/
  drawn : List NewChallenge

def TrustDb.initial (now : OffsetDateTime) : TrustDb := ⟨now, .empty, .empty, .empty, .empty, []⟩

def NewChallenge.binding (self : NewChallenge) : AttestationReportBinding where
  challengeId := self.id
  nodeId := self.nodeId
  modelInstanceId := self.modelInstanceId
  nonce := self.nonce.toList
  sandboxPolicyHash := self.sandboxPolicyHash
  runtimeBinaryHash := self.runtimeBinaryHash
  modelWeightsHash := self.modelWeightsHash
  ephemeralPublicKey := self.ephemeralPublicKey
  keyOrigin := self.keyOrigin

/-- The column checks of `attestation_challenges` that the types do not give. -/
def NewChallenge.Storable (self : NewChallenge) (createdAt : OffsetDateTime) : Prop :=
  self.provider ≠ .none ∧ self.nonceHash.length = 64 ∧ self.sandboxPolicyHash.length = 64 ∧
    self.runtimeBinaryHash.length = 64 ∧ self.modelWeightsHash.length = 64 ∧
    self.ephemeralPublicKey.length = 64 ∧ self.reportData.length = 128 ∧
    createdAt.unixTimestampNanos < self.expiresAt.unixTimestampNanos

instance (new : NewChallenge) (createdAt : OffsetDateTime) : Decidable (new.Storable createdAt) :=
  inferInstanceAs (Decidable (_ ∧ _))

/-- The check `attestation_reports_verified_fields_v1`, over the columns that may be null,
and the length of the evidence. -/
def AttestationReport.Storable (self : AttestationReport) : Prop :=
  (self.status = .verified → self.teeMeasurement ≠ none ∧ self.signatureVerified = true ∧
    self.certificateChainVerified = true ∧ self.tcbCurrent = true ∧
    self.collateralCurrent = true ∧ self.collateralExpiresAt ≠ none ∧ self.verifiedAt ≠ none) ∧
  4 ≤ self.evidenceBase64.length ∧ self.evidenceBase64.length ≤ 786432

instance (report : AttestationReport) : Decidable report.Storable :=
  inferInstanceAs (Decidable (_ ∧ _))

end Rows

structure AttestationServices where
  config : Config
  sha256 : List UInt8 → List UInt8
  sha512 : List UInt8 → List UInt8

def attestationUnavailable (message : String) : ApiError := ⟨503, 30, "attestation_failed", message⟩

/-- `OffsetDateTime + Duration`, which panics outside of the range; nothing has been
written by then. -/
def after (instant : OffsetDateTime) (nanos : Int) : ApiResult OffsetDateTime :=
  if h : _ then .ok ⟨instant.unixTimestampNanos + nanos, h⟩ else .error .internal

def requireNodeDeviceBinding (principal : Principal) (userId : Uuid) (deviceKeyId : Option Uuid) :
    ApiResult Unit :=
  rejectIf (userId ≠ principal.userId ∨ deviceKeyId ≠ some principal.deviceKeyId)
    (.forbidden "当前设备无权操作此节点")

section Challenge
variable (env : AttestationServices)

structure AttestationChallengeRequest where
  nodeId : Uuid
  modelInstanceId : Uuid
  provider : AttestationProvider
  sandboxPolicyHash : String
  runtimeBinaryHash : String
  ephemeralPublicKey : String
  keyOrigin : AttestationKeyOrigin

def AttestationChallengeRequest.validate (self : AttestationChallengeRequest) :
    Except ProtocolValidationError Unit := do
  rejectIf (self.provider = .none) ⟨"provider", "必须选择受支持的硬件证明提供者"⟩
  validateSha256 "sandbox_policy_hash" self.sandboxPolicyHash
  validateSha256 "runtime_binary_hash" self.runtimeBinaryHash
  validateLowerHex "ephemeral_public_key" self.ephemeralPublicKey 32

def invalidAttestation (error : ProtocolValidationError) : ApiError :=
  .attestationFailed error.text

/-- The part of `create_attestation_challenge` before its transaction. -/
def drawChallenge (db : TrustDb) (principal : Principal) (request : AttestationChallengeRequest)
    (challengeId : Uuid) (nonce : Bytes 32) (now : OffsetDateTime) : ApiResult NewChallenge := do
  request.validate.mapError invalidAttestation
  let policy ← okOr (.attestationFailed "不支持该硬件证明提供者")
    (providerConfig env.config request.provider)
  rejectIf (¬ policy.deployable) (attestationUnavailable
    "协调服务器没有为该提供者配置固定 verifier、策略/运行时哈希和 TEE measurement allowlist")
  rejectIf (request.sandboxPolicyHash ∉ policy.allowedPolicyHashes ∨
      request.runtimeBinaryHash ∉ policy.allowedRuntimeHashes)
    (.attestationFailed "当前沙盒策略或推理运行时不在服务器 Enhanced allowlist")
  let node ← okOr (.notFound "节点绑定的模型实例") (db.nodes.find request.nodeId)
  let published ← okOr (.notFound "节点绑定的模型实例")
    ((db.instances.find request.modelInstanceId).filter fun row => row.nodeId = node.id)
  requireNodeDeviceBinding principal node.userId node.deviceKeyId
  rejectIf (published.nodeId ≠ request.nodeId ∨ published.status ≠ .published)
    (.attestationFailed "远程证明要求节点当前拥有已发布的模型实例")
  let reportData ← (attestationReportData env.sha512
    ⟨challengeId, request.nodeId, request.modelInstanceId, nonce.toList,
      request.sandboxPolicyHash, request.runtimeBinaryHash, published.weightsHash,
      request.ephemeralPublicKey, request.keyOrigin⟩).mapError invalidAttestation
  let expiresAt ← after now env.config.attestationChallengeTtl
  return {
    id := challengeId
    userId := principal.userId
    nodeId := request.nodeId
    modelInstanceId := request.modelInstanceId
    provider := request.provider
    nonce
    nonceHash := String.ofList (hexEncode (env.sha256 nonce.toList))
    sandboxPolicyHash := request.sandboxPolicyHash
    runtimeBinaryHash := request.runtimeBinaryHash
    modelWeightsHash := published.weightsHash
    ephemeralPublicKey := request.ephemeralPublicKey
    keyOrigin := request.keyOrigin
    reportData := String.ofList (hexEncode reportData)
    expiresAt }

/-- Pending challenges of a user whose time is over. -/
def expirePending (now : OffsetDateTime) (userId : Uuid) (row : AttestationChallenge) :
    AttestationChallenge :=
  if row.userId = userId ∧ row.status = .pending ∧
      row.expiresAt.unixTimestampNanos ≤ now.unixTimestampNanos then
    { row with status := .expired, consumedAt := some now }
  else row

theorem expirePending_id (now : OffsetDateTime) (userId : Uuid) (row : AttestationChallenge) :
    (expirePending now userId row).id = row.id := by
  unfold expirePending
  split <;> rfl

/-- The transaction of `create_attestation_challenge`. -/
def insertChallenge (db : TrustDb) (new : NewChallenge) : ApiResult TrustDb := do
  let challenges := db.challenges.mapRows (expirePending db.now new.userId)
    (expirePending_id db.now new.userId)
  rejectIf (¬ new.Storable db.now ∨ challenges.find new.id ≠ none ∨
      (challenges.rows.any fun row => row.nonceHash == new.nonceHash) = true) .internal
  return { db with challenges := challenges.set ⟨new, .pending, db.now, none⟩ }

end Challenge

end MindOne.Attestation

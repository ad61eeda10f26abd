import MindOne.Regulated.Encodings
import MindOne.Regulated.Inference

/-!
# The local check of hardware evidence

The consumer runs an adapter of its own over the evidence of a prepared route
and keeps the conclusions that name its policy, its runtime and its measurement.
-/

namespace MindOne.Regulated

open CheckedArithmetic MindOne.Stream

inductive AttestationEvidenceKind where
  | snpExtendedReport | tdxQuote
  deriving DecidableEq, Repr

def AttestationEvidenceKind.matchesProvider :
    AttestationEvidenceKind → AttestationProvider → Bool
  | .snpExtendedReport, .amdSevSnp => true
  | .tdxQuote, .intelTdx => true
  | _, _ => false

/-- `OffsetDateTime::from_unix_timestamp`. -/
def fromUnixTimestamp (seconds : Int) : Option OffsetDateTime :=
  if h : -377705116800 ≤ seconds ∧ seconds ≤ 253402300799 then
    some ⟨seconds * 1000000000, by omega, by omega⟩
  else none

inductive ClientVerificationError where
  | unavailable | invalidProgram | invalidAllowlist | notAllowed | invalidEvidence | spawn
  | timeout | exitFailure | outputTooLarge | invalidOutput | bindingMismatch | hardwareRejected
  deriving DecidableEq, Repr

def ClientVerificationError.text : ClientVerificationError → String
  | .unavailable => "本机没有配置固定硬件 evidence verifier 或完整 allowlist"
  | .invalidProgram => "本机硬件 evidence verifier 路径必须是绝对路径下非符号链接的普通文件"
  | .invalidAllowlist => "本机硬件 evidence allowlist 格式无效"
  | .notAllowed => "prepared route 的策略、运行时或 TEE measurement 不在本机 allowlist"
  | .invalidEvidence => "硬件 evidence 不是有效且受限的标准 base64"
  | .spawn => "无法启动本机硬件 evidence verifier"
  | .timeout => "本机硬件 evidence verifier 超时"
  | .exitFailure => "本机硬件 evidence verifier 执行失败"
  | .outputTooLarge => "本机硬件 evidence verifier 输出超过限制"
  | .invalidOutput => "本机硬件 evidence verifier 输出不是严格 v1 JSON"
  | .bindingMismatch => "本机 verifier 返回的 provider、证据类型或 REPORTDATA 不匹配"
  | .hardwareRejected => "本机 verifier 未确认签名、证书链、TCB 或 collateral"

def clientAdapterSchema : String := "mindone.attestation.verifier.v1"

structure ClientAdapterInput where
  schemaVersion : String
  provider : AttestationProvider
  evidenceKind : AttestationEvidenceKind
  evidenceBase64 : String
  expectedReportData : String

structure ClientAdapterOutput where
  schemaVersion : String
  verifierName : String
  provider : AttestationProvider
  evidenceKind : AttestationEvidenceKind
  verified : Bool
  reportData : String
  teeMeasurement : String
  signatureVerified : Bool
  certificateChainVerified : Bool
  tcbCurrent : Bool
  collateralCurrent : Bool
  collateralExpiresAtUnix : Int

structure ClientVerificationInput where
  evidenceKind : AttestationEvidenceKind
  evidenceBase64 : String
  expectedReportData : String
  sandboxPolicyHash : String
  runtimeBinaryHash : String
  expectedMeasurement : String
  now : OffsetDateTime

structure ClientVerificationClaims where
  verifierName : String
  teeMeasurement : String
  collateralExpiresAt : OffsetDateTime

/-- The configured adapter, with the values that this device allows. -/
structure ClientEvidenceVerifier where
  provider : AttestationProvider
  program : ClientAdapterInput → Except ClientVerificationError ClientAdapterOutput
  allowedPolicyHashes : List String
  allowedRuntimeHashes : List String
  allowedMeasurements : List String

def validateOutputHex (value : String) (exactLen : Nat) : Except ClientVerificationError Unit :=
  rejectIf (value.utf8ByteSize ≠ exactLen ∨ value.toList.all isLowerHex = false) .invalidOutput

def validateOutput (verifier : ClientEvidenceVerifier) (output : ClientAdapterOutput)
    (input : ClientVerificationInput) :
    Except ClientVerificationError ClientVerificationClaims := do
  rejectIf (output.schemaVersion ≠ clientAdapterSchema ∨ output.verifierName = "" ∨
      128 < output.verifierName.utf8ByteSize ∨
      (output.verifierName.toList.all fun c => decide (c.toNat < 128)) = false) .invalidOutput
  validateOutputHex output.reportData 128
  rejectIf (¬ (64 ≤ output.teeMeasurement.utf8ByteSize ∧
      output.teeMeasurement.utf8ByteSize ≤ 128) ∨
      output.teeMeasurement.utf8ByteSize % 2 ≠ 0) .invalidOutput
  validateOutputHex output.teeMeasurement output.teeMeasurement.utf8ByteSize
  rejectIf (output.provider ≠ verifier.provider ∨ output.evidenceKind ≠ input.evidenceKind ∨
      output.reportData ≠ input.expectedReportData ∨
      output.teeMeasurement ≠ input.expectedMeasurement) .bindingMismatch
  let collateralExpiresAt ← okOr .invalidOutput (fromUnixTimestamp output.collateralExpiresAtUnix)
  rejectIf (output.verified = false ∨ output.signatureVerified = false ∨
      output.certificateChainVerified = false ∨ output.tcbCurrent = false ∨
      output.collateralCurrent = false ∨
      collateralExpiresAt.unixTimestampNanos ≤ input.now.unixTimestampNanos) .hardwareRejected
  return ⟨output.verifierName, output.teeMeasurement, collateralExpiresAt⟩

def ClientEvidenceVerifier.verify (self : ClientEvidenceVerifier)
    (input : ClientVerificationInput) :
    Except ClientVerificationError ClientVerificationClaims := do
  rejectIf (input.sandboxPolicyHash ∉ self.allowedPolicyHashes ∨
      input.runtimeBinaryHash ∉ self.allowedRuntimeHashes ∨
      input.expectedMeasurement ∉ self.allowedMeasurements) .notAllowed
  validateOutputHex input.expectedReportData 128
  let evidence ← okOr .invalidEvidence
    (Base64.decodePadded Base64.standard input.evidenceBase64.toList)
  rejectIf (evidence = [] ∨ 576 * 1024 < evidence.length) .invalidEvidence
  let output ← self.program ⟨clientAdapterSchema, self.provider, input.evidenceKind,
    input.evidenceBase64, input.expectedReportData⟩
  validateOutput self output input

/-- What an accepted piece of evidence establishes. -/
structure Confirmed (verifier : ClientEvidenceVerifier) (input : ClientVerificationInput) :
    Prop where
  allowed : input.sandboxPolicyHash ∈ verifier.allowedPolicyHashes ∧
    input.runtimeBinaryHash ∈ verifier.allowedRuntimeHashes ∧
    input.expectedMeasurement ∈ verifier.allowedMeasurements
  output : ∃ output, verifier.program ⟨clientAdapterSchema, verifier.provider, input.evidenceKind,
      input.evidenceBase64, input.expectedReportData⟩ = .ok output ∧
    output.reportData = input.expectedReportData ∧
    output.teeMeasurement = input.expectedMeasurement ∧ output.verified = true ∧
    output.signatureVerified = true ∧ output.certificateChainVerified = true ∧
    output.tcbCurrent = true ∧ output.collateralCurrent = true

theorem confirmed_of_verify {verifier : ClientEvidenceVerifier} {input : ClientVerificationInput}
    {claims : ClientVerificationClaims} (h : verifier.verify input = .ok claims) :
    Confirmed verifier input := by
  simp only [ClientEvidenceVerifier.verify, validateOutput, validateOutputHex, bind_eq_ok,
    rejectIf_eq_ok, exists_const, not_or, not_not, Bool.not_eq_false] at h
  obtain ⟨hallowed, _, _, _, _, output, hprogram, _, _, _, _, ⟨_, _, hdata, hmeasurement⟩, _, _,
    ⟨hverified, hsignature, hchain, htcb, hcollateral, _⟩, _⟩ := h
  exact ⟨hallowed, output, hprogram, hdata, hmeasurement, hverified, hsignature, hchain, htcb,
    hcollateral⟩

end MindOne.Regulated

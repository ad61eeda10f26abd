import MindOne.Attestation.Challenges

/-!
# Submitted evidence and the trust of nodes

A submission consumes its challenge whatever the verdict is, writes one report and
raises the trust of the node only where every conclusion was checked. A node that
registers again keeps an enhanced trust that is still backed by a current report.
-/

namespace MindOne.Attestation

open CheckedArithmetic Coordinator KeyedTable MindOne.Stream Regulated

section Submission
variable (env : AttestationServices)

structure AttestationSubmitRequest where
  challengeId : Uuid
  provider : AttestationProvider
  evidenceKind : AttestationEvidenceKind
  evidence : String

def AttestationSubmitRequest.validate (self : AttestationSubmitRequest) :
    Except ProtocolValidationError Unit := do
  rejectIf (self.provider = .none ∨ self.evidenceKind.matchesProvider self.provider = false)
    ⟨"evidence_kind",
      "证据类型与硬件证明提供者不匹配；Intel TDX 必须提交 Quote，不能提交裸 TDREPORT"⟩
  rejectIf (self.evidence = "" ∨ 768 * 1024 < self.evidence.utf8ByteSize ∨
      (self.evidence.toList.all fun c => decide (c.toNat < 128)) = false ∨
      self.evidence.toList.any isAsciiWhitespace = true)
    ⟨"evidence", "证明证据必须是非空且不超过 768 KiB 的单行 base64"⟩

structure AttestationSubmitResponse where
  reportId : Uuid
  nodeId : Uuid
  modelInstanceId : Uuid
  provider : AttestationProvider
  trustLevel : TrustLevel
  verifiedAt : OffsetDateTime
  expiresAt : OffsetDateTime
  ephemeralPublicKey : String
  keyOrigin : AttestationKeyOrigin

/-- Whether the instance is still the one that the challenge was drawn for. -/
def resourceBindingCurrent (db : TrustDb) (principal : Principal)
    (challenge : AttestationChallenge) : ApiResult Bool :=
  match db.nodes.find challenge.nodeId, db.instances.find challenge.modelInstanceId with
  | some node, some published =>
      if published.nodeId = node.id then do
        requireNodeDeviceBinding principal node.userId node.deviceKeyId
        return decide (published.nodeId = challenge.nodeId ∧ published.status = .published ∧
          published.weightsHash = challenge.modelWeightsHash)
      else .ok false
  | _, _ => .ok false

/-- The conclusions about a submission, and the verdict. -/
def judge (request : AttestationSubmitRequest) (challenge : AttestationChallenge)
    (policy : HardwareAttestationConfig) (current : Bool) (now : OffsetDateTime)
    (answer : Except VerificationError AdapterOutput) : Option VerificationClaims × String :=
  if challenge.expiresAt.unixTimestampNanos ≤ now.unixTimestampNanos then
    (none, "challenge_expired")
  else if request.provider ≠ challenge.provider ∨
      request.evidenceKind.matchesProvider challenge.provider = false then
    (none, "provider_mismatch")
  else if current = false then (none, "resource_binding_changed")
  else if ¬ policy.deployable ∨ challenge.sandboxPolicyHash ∉ policy.allowedPolicyHashes ∨
      challenge.runtimeBinaryHash ∉ policy.allowedRuntimeHashes then
    (none, "server_policy_unavailable")
  else
    match verify env.config challenge.provider request.evidenceKind answer with
    | .ok claims => (some claims, evaluateClaims claims challenge.provider request.evidenceKind
        challenge.reportData policy now)
    | .error error => (none, error.auditCode)

def earlier (a b : OffsetDateTime) : OffsetDateTime :=
  if b.unixTimestampNanos < a.unixTimestampNanos then b else a

def reportExpiresAt (challenge : AttestationChallenge) (claims : Option VerificationClaims)
    (verified : Bool) (now : OffsetDateTime) : ApiResult OffsetDateTime :=
  if verified then do
    let configuredExpiry ← after now env.config.attestationReportTtl
    return (claims.map fun value => earlier value.collateralExpiresAt configuredExpiry).getD
      configuredExpiry
  else .ok challenge.expiresAt

def reportStatusOf (reason : String) : ReportStatus :=
  if reason = "challenge_expired" then .expired
  else if reason = "verified" then .verified else .rejected

def reportOf (challenge : AttestationChallenge) (request : AttestationSubmitRequest)
    (evidence : List UInt8) (claims : Option VerificationClaims) (reason : String)
    (reportId : Uuid) (now expiresAt : OffsetDateTime) : AttestationReport where
  id := reportId
  nodeId := challenge.nodeId
  provider := challenge.provider
  nonceHash := challenge.nonceHash
  policyHash := challenge.sandboxPolicyHash
  runtimeHash := challenge.runtimeBinaryHash
  modelHash := challenge.modelWeightsHash
  issuedAt := challenge.createdAt
  verifiedAt := if reason = "verified" then some now else none
  expiresAt := expiresAt
  status := reportStatusOf reason
  challengeId := request.challengeId
  modelInstanceId := challenge.modelInstanceId
  evidenceKind := request.evidenceKind
  evidenceSha256 := String.ofList (hexEncode (env.sha256 evidence))
  evidenceBase64 := request.evidence
  reportData := challenge.reportData
  teeMeasurement := claims.map VerificationClaims.teeMeasurement
  ephemeralPublicKey := challenge.ephemeralPublicKey
  keyOrigin := challenge.keyOrigin
  verifierName :=
    (claims.map VerificationClaims.verifierName).getD "mindone-coordinator-fail-closed"
  signatureVerified := claims.any VerificationClaims.signatureVerified
  certificateChainVerified := claims.any VerificationClaims.certificateChainVerified
  tcbCurrent := claims.any VerificationClaims.tcbCurrent
  collateralCurrent := claims.any VerificationClaims.collateralCurrent
  collateralExpiresAt := claims.map VerificationClaims.collateralExpiresAt
  verdictReason := reason

/-- The unique indexes of `attestation_reports`. -/
def insertReport (db : TrustDb) (report : AttestationReport) : ApiResult TrustDb := do
  rejectIf (¬ report.Storable ∨ db.reports.find report.id ≠ none ∨
      (db.reports.rows.any fun row => decide (row.challengeId = report.challengeId) ||
        decide (row.nodeId = report.nodeId) && row.nonceHash == report.nonceHash) = true) .internal
  return { db with reports := db.reports.set report }

def consumeChallenge (db : TrustDb) (challenge : AttestationChallenge) (status : ReportStatus) :
    TrustDb :=
  { db with challenges :=
      db.challenges.set { challenge with status := status, consumedAt := some db.now } }

/-- `UPDATE nodes … WHERE id = $1 AND user_id = $4`. -/
def raiseTrust (db : TrustDb) (principal : Principal) (report : AttestationReport) : TrustDb :=
  match db.nodes.find report.nodeId with
  | some node =>
      if node.userId = principal.userId then
        { db with nodes := db.nodes.set { node with
            trustLevel := .enhanced
            attestationReportId := some report.id
            trustExpiresAt := some report.expiresAt } }
      else db
  | none => db

def recordVerdict (db : TrustDb) (principal : Principal) (challenge : AttestationChallenge)
    (report : AttestationReport) : ApiResult TrustDb := do
  let db ← insertReport db report
  let db := consumeChallenge db challenge report.status
  return if report.status = .verified then raiseTrust db principal report else db

def submitAnswer (report : AttestationReport) (now : OffsetDateTime) :
    ApiResult AttestationSubmitResponse :=
  if report.status = .verified then
    .ok ⟨report.id, report.nodeId, report.modelInstanceId, report.provider, .enhanced, now,
      report.expiresAt, report.ephemeralPublicKey, report.keyOrigin⟩
  else
    .error (.attestationFailed ("硬件远程证明未通过服务端验证（" ++ report.verdictReason ++ "）"))

/-- A verdict against the evidence is committed before it is answered with an error. -/
def submitAttestation (db : TrustDb) (principal : Principal) (request : AttestationSubmitRequest)
    (reportId : Uuid) (now : OffsetDateTime) (answer : Except VerificationError AdapterOutput) :
    ApiResult (TrustDb × ApiResult AttestationSubmitResponse) := do
  request.validate.mapError invalidAttestation
  let evidence ← okOr (.attestationFailed "证明证据不是有效的标准 base64")
    (Base64.decodePadded Base64.standard request.evidence.toList)
  rejectIf (evidence = [] ∨ 576 * 1024 < evidence.length)
    (.attestationFailed "解码后的证明证据为空或超过 576 KiB")
  let challenge ← okOr (.notFound "远程证明挑战") (db.challenges.find request.challengeId)
  rejectIf (challenge.userId ≠ principal.userId) (.forbidden "无权提交该远程证明挑战")
  rejectIf (challenge.status ≠ .pending ∨ challenge.consumedAt ≠ none)
    (.conflict "attestation_replay" "远程证明挑战已消费，拒绝重放")
  let policy ← okOr (.attestationFailed "不支持该硬件证明提供者")
    (providerConfig env.config challenge.provider)
  let current ← resourceBindingCurrent db principal challenge
  let verdict := judge env request challenge policy current now answer
  let expiresAt ← reportExpiresAt env challenge verdict.1 (verdict.2 == "verified") now
  let report := reportOf env challenge request evidence verdict.1 verdict.2 reportId now expiresAt
  let db ← recordVerdict db principal challenge report
  return (db, submitAnswer report now)

end Submission

section Registration

inductive SandboxMechanism where
  | seatbelt | appSandbox | namespaces | seccompBpf | landlock | appArmor | jobObjects
  | appContainer | hyperV
  deriving DecidableEq, Repr

/-- What the software trust depends on; `operatingSystem` is trimmed and in lower case. -/
structure HardwareProfile where
  operatingSystem : String
  sandboxMechanisms : List SandboxMechanism

def softwareTrustLevel (profile : HardwareProfile) : TrustLevel :=
  let has := fun mechanism => decide (mechanism ∈ profile.sandboxMechanisms)
  match profile.operatingSystem with
  | "macos" =>
      if has .seatbelt || has .appSandbox then .standardLimited else .unverified
  | "linux" =>
      if has .namespaces && has .seccompBpf && has .landlock then .standard
      else if has .namespaces && has .seccompBpf then .standardLimited
      else .unverified
  | "windows" =>
      if has .jobObjects || has .appContainer || has .hyperV then .experimental else .unverified
  | _ => .unverified

/-- Software alone never makes a node trusted. -/
theorem softwareTrustLevel_ne_enhanced (profile : HardwareProfile) :
    softwareTrustLevel profile ≠ .enhanced := by
  unfold softwareTrustLevel
  dsimp only
  split
  · split <;> decide
  · split
    · decide
    · split <;> decide
  · split <;> decide
  · decide

/-- The enhanced trust of a node is still backed by its report. -/
def TrustNode.Backed (db : TrustDb) (node : TrustNode) : Prop :=
  node.trustLevel = .enhanced ∧
  (node.trustExpiresAt.any fun expiry =>
    decide (db.now.unixTimestampNanos < expiry.unixTimestampNanos)) = true ∧
  (db.reports.rows.any fun report => decide (node.attestationReportId = some report.id) &&
    decide (report.nodeId = node.id) && decide (report.status = .verified) &&
    decide (db.now.unixTimestampNanos < report.expiresAt.unixTimestampNanos) &&
    (report.collateralExpiresAt.any fun expiry =>
      decide (db.now.unixTimestampNanos < expiry.unixTimestampNanos)) &&
    report.signatureVerified && report.certificateChainVerified && report.tcbCurrent &&
    report.collateralCurrent) = true

instance (db : TrustDb) (node : TrustNode) : Decidable (node.Backed db) :=
  inferInstanceAs (Decidable (_ ∧ _))

structure RegisterNodeRequest where
  /-- Trimmed. -/
  nodeAlias : String
  hardwareProfile : HardwareProfile

/-- `INSERT INTO nodes … ON CONFLICT (user_id,alias) DO UPDATE`. -/
def registerNode (db : TrustDb) (principal : Principal) (request : RegisterNodeRequest)
    (nodeId : Uuid) : ApiResult (TrustDb × TrustLevel) :=
  let software := softwareTrustLevel request.hardwareProfile
  match db.nodes.rows.find? fun row =>
    decide (row.userId = principal.userId) && row.nodeAlias == request.nodeAlias with
  | none => do
      rejectIf (db.nodes.find nodeId ≠ none) .internal
      return ({ db with nodes := db.nodes.set ⟨nodeId, principal.userId, request.nodeAlias,
        some principal.deviceKeyId, software, none, none⟩ }, software)
  | some existing => do
      rejectIf (¬ (existing.deviceKeyId = none ∨
          existing.deviceKeyId = some principal.deviceKeyId))
        (.conflict "node_device_binding_mismatch" "节点已经绑定到另一设备，不能更换设备密钥")
      let node := { existing with
        deviceKeyId := some principal.deviceKeyId
        trustLevel := if existing.Backed db then existing.trustLevel else software
        attestationReportId := if existing.Backed db then existing.attestationReportId else none
        trustExpiresAt := if existing.Backed db then existing.trustExpiresAt else none }
      return ({ db with nodes := db.nodes.set node }, node.trustLevel)

end Registration

section Runs
variable (env : AttestationServices)

inductive TrustAction where
  | passTime (now : OffsetDateTime)
  /-- Other routes publish, withdraw and replace instances and models. -/
  | manage (instances : Table PublishedInstance.id)
  | register (principal : Principal) (request : RegisterNodeRequest) (nodeId : Uuid)
  | draw (principal : Principal) (request : AttestationChallengeRequest) (challengeId : Uuid)
      (nonce : Bytes 32) (now : OffsetDateTime)
  /-- One of the drawn challenges reaches its transaction. -/
  | insert (index : Nat)
  | submit (principal : Principal) (request : AttestationSubmitRequest) (reportId : Uuid)
      (now : OffsetDateTime) (answer : Except VerificationError AdapterOutput)

/-- The database after a transaction: a failed one changes nothing. -/
def TrustDb.commit (db : TrustDb) : ApiResult TrustDb → TrustDb
  | .ok changed => changed
  | .error _ => db

def performTrust (db : TrustDb) : TrustAction → TrustDb
  | .passTime now =>
      if db.now.unixTimestampNanos ≤ now.unixTimestampNanos then { db with now } else db
  | .manage instances => { db with instances }
  | .register principal request nodeId =>
      db.commit ((registerNode db principal request nodeId).map Prod.fst)
  | .draw principal request challengeId nonce now =>
      match drawChallenge env db principal request challengeId nonce now with
      | .ok new => { db with drawn := new :: db.drawn }
      | .error _ => db
  | .insert index =>
      match db.drawn[index]? with
      | some new => db.commit (insertChallenge db new)
      | none => db
  | .submit principal request reportId now answer =>
      db.commit ((submitAttestation env db principal request reportId now answer).map Prod.fst)

/-- Some actions in a row. -/
def performTrusts (actions : List TrustAction) (db : TrustDb) : TrustDb :=
  actions.foldl (performTrust env) db

end Runs

end MindOne.Attestation

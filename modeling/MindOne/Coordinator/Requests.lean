import MindOne.Accounting.Policy
import MindOne.Coordinator.State

/-!
# Creating jobs and routing them to workers

A job is admitted when its reservation fits into what the account has left; it
is offered to the worker that routing selects for it. What the service decides
by other means (payload checks, anti-abuse rules, model choice, encryption, the
order among routable instances) is a parameter.
-/

namespace MindOne.Coordinator

open CheckedArithmetic Accounting Database KeyedTable

structure Principal where
  userId : Uuid
  deviceKeyId : Uuid

structure CreateJobRequest where
  virtualModel : String
  encryptedPayload : String
  tags : List String
  estimatedInputTokens : Int
  maxOutputTokens : Int
  idempotencyKey : String
  priority : Int

structure CreateRegulatedJobRequest where
  routeId : Uuid
  idempotencyKey : String
  envelopeReportId : Uuid
  envelopeModelInstanceId : Uuid
  envelopeSenderPublicKey : String
  opaqueEnvelope : String

structure CreateJobResponse where
  jobId : Uuid
  status : JobStatus
  modelId : Uuid
  reservedCostMicro : Int
  idempotentReplay : Bool

structure ValidatedStandardJob where
  requestFingerprint : String
  stream : Bool

structure SpeedQualifiedModel where
  baseModel : String
  speedClass : SpeedClass

structure SelectedModel where
  id : Uuid
  weightsHash : String

inductive StorageDirection where
  | payload | result
  deriving DecidableEq, Repr

structure JobResultRequest where
  nodeId : Uuid
  idempotencyKey : String
  resultCiphertext : String
  actualInputTokens : Int
  actualOutputTokens : Int
  executionTelemetry : String

structure CompleteJob where
  jobId : Uuid
  nodeId : Uuid
  workerUserId : Uuid
  claimDeviceKeyId : Uuid
  idempotencyKey : String
  resultCiphertext : String
  actualInputTokens : Int
  actualOutputTokens : Int
  executionTelemetry : String

inductive JobErrorClass where
  | engine | model | policy | timeout | resourceExhausted | nodeDisconnected | invalidRequest
  | internal | attestation
  deriving DecidableEq, Repr

/-- A failure report names the job and the node, but not the attempt. -/
structure JobFailRequest where
  nodeId : Uuid
  idempotencyKey : String
  errorClass : JobErrorClass
  errorMessage : String
  retryable : Bool

structure OperatorQuotaGrantRequest where
  userId : Uuid
  amountMicro : Int
  idempotencyKey : String
  operatorId : String
  reason : String

structure ReserveReleaseCommand where
  purpose : ReservePurpose
  amountMicro : Int
  referenceId : String
  idempotencyKey : String
  operatorId : String
  reason : String

/-- What the service computes outside the job tables. -/
structure Services where
  /-- SHA-256 in lower-case hexadecimal. -/
  digest : List UInt8 → String
  maxJobRetries : Int
  /-- `config.lease_duration` in microseconds. -/
  leaseDuration : Int
  evaluationInstanceCooldown : Int
  validateCreateJob : CreateJobRequest → ApiResult ValidatedStandardJob
  validateRegulatedJob : CreateRegulatedJobRequest → ApiResult String
  assessJobCreation : Db → Principal → String → ApiResult Unit
  parseSpeedQualifiedModel : String → ApiResult SpeedQualifiedModel
  selectModel : Db → SpeedQualifiedModel → CreateJobRequest → ApiResult SelectedModel
  checkReservedCapacityAndPolicy : Db → RegulatedRoute → ApiResult Bool
  encryptForStorage : Uuid → StorageDirection → String → ApiResult String
  decryptFromStorage : Uuid → StorageDirection → String → ApiResult String
  /-- SQL `lower`. -/
  lower : String → String
  /-- The `Debug` text of a string. -/
  debugText : String → String
  /-- The order of the routing query over instances that may run the job. -/
  prioritize : Db → Job → List ModelInstance → List ModelInstance
  prioritize_perm : ∀ db job instances, (prioritize db job instances).Perm instances
  /-- The quarantined instances after a canary signal. -/
  canarySignal : Db → Uuid → Bool → Uuid → Bool
  authorizeTerminal : EvaluationChallenge → ApiResult Unit
  failureRequestHash : JobFailRequest → String
  resultRequestHash : JobResultRequest → String
  validateJobResult : Db → Uuid → JobResultRequest → ApiResult Unit
  validateFailureReport : JobFailRequest → ApiResult Unit
  /-- Whether the answer to a challenge is right, after the checks of its form. -/
  submittedAnswerMatches : Db → EvaluationChallenge → JobResultRequest → ApiResult Bool
  telemetryFingerprint : Db → Job → CompleteJob → ApiResult String
  appendExecutionFingerprint : Db → Job → CompleteJob → ApiResult Unit
  validateRegulatedResultBinding : Db → Job → CompleteJob → ApiResult Unit
  precreateWeight : Db → Job → Option Int
  settlementContributionWeight : Db → Uuid → Uuid → ApiResult Int
  /-- The hash of the canonical form of a billing snapshot. -/
  billingSnapshotHash : JobBillingSnapshot → ApiResult String
  recordSettledEdge : Db → Uuid → Uuid → ApiResult Unit
  /-- Hashes of requests in their serialized form. -/
  grantFingerprint : OperatorQuotaGrantRequest → String
  releaseFingerprint : ReserveReleaseCommand → String

def serverReferenceUpperBoundV1 : String := "server_reference_upper_bound_v1"

def billingProfileUnavailable : ApiError := .unavailable "billing_profile_unavailable"
  "当前模型没有有效且覆盖本次 Token 授权上界的物理计费 profile"

/-- A quote that cannot be made is an unavailable profile. -/
def orUnavailable {α : Type} : Result α → ApiResult α
  | .ok a => .ok a
  | .error _ => .error billingProfileUnavailable

@[simp] theorem orUnavailable_eq_ok {α : Type} {x : Result α} {a : α} :
    orUnavailable x = .ok a ↔ x = .ok a := by
  cases x <;> simp [orUnavailable]

/-- A frozen quote with the reservation that covers it. -/
structure BillingSnapshot where
  frozen : JobBillingSnapshot
  reservationMicro : Int

/-- A quote in the columns of a job. -/
def JobBillingSnapshot.ofQuote (profile : BillingProfileSnapshot) (input output : Int)
    (quote : PhysicalBillingQuote) : JobBillingSnapshot where
  profile
  authorizedInputTokens := input
  authorizedMaxOutputTokens := output
  billableTokens := quote.billableTokens
  referenceGpuTimeUs := quote.referenceGpuTimeUs
  referenceVramMibMicroseconds := quote.referenceVramMibMicroseconds
  tokenCostMicro := quote.tokenCost.asI64
  gpuCostMicro := quote.gpuCost.asI64
  vramCostMicro := quote.vramCost.asI64
  baseCostMicro := quote.baseCost.asI64

/-- The stored amounts are those of the quote. -/
def JobBillingSnapshot.MatchesQuote (frozen : JobBillingSnapshot)
    (quote : PhysicalBillingQuote) : Prop :=
  quote.billableTokens = frozen.billableTokens ∧
    quote.referenceGpuTimeUs = frozen.referenceGpuTimeUs ∧
    quote.referenceVramMibMicroseconds = frozen.referenceVramMibMicroseconds ∧
    quote.tokenCost.asI64 = frozen.tokenCostMicro ∧ quote.gpuCost.asI64 = frozen.gpuCostMicro ∧
    quote.vramCost.asI64 = frozen.vramCostMicro ∧ quote.baseCost.asI64 = frozen.baseCostMicro

instance (frozen : JobBillingSnapshot) (quote : PhysicalBillingQuote) :
    Decidable (frozen.MatchesQuote quote) := inferInstanceAs (Decidable (_ ∧ _))

def BillingSnapshot.calculate (profile : BillingProfileSnapshot) (input output : Int) :
    ApiResult BillingSnapshot := do
  let quote ← orUnavailable (maximumReservationQuote profile.profile input output)
  let reservation ← orUnavailable (maximumReservationMicro profile.profile input output)
  return ⟨.ofQuote profile input output quote, reservation.asI64⟩

def BillingSnapshot.fromFrozenRow (frozen : JobBillingSnapshot)
    (expectedModelWeightsHash : String) : ApiResult BillingSnapshot := do
  rejectIf (frozen.profile.contractVersion ≠ serverReferenceUpperBoundV1)
    billingProfileUnavailable
  rejectIf (frozen.profile.modelWeightsHash ≠ expectedModelWeightsHash)
    billingProfileUnavailable
  let quote ← orUnavailable (maximumReservationQuote frozen.profile.profile
    frozen.authorizedInputTokens frozen.authorizedMaxOutputTokens)
  let reservation ← orUnavailable (maximumReservationMicro frozen.profile.profile
    frozen.authorizedInputTokens frozen.authorizedMaxOutputTokens)
  rejectIf (¬ frozen.MatchesQuote quote) billingProfileUnavailable
  return ⟨frozen, reservation.asI64⟩

/-- The newest profile that is in force. -/
def currentBillingProfile (db : Db) (modelId : Uuid) (weightsHash : String) :
    Option BillingProfileSnapshot :=
  let rows := db.workers.billingProfiles.rows.filter fun profile =>
    profile.contractVersion = serverReferenceUpperBoundV1 ∧ profile.modelId = modelId ∧
      profile.modelWeightsHash = weightsHash ∧ profile.validFrom ≤ db.now ∧
      db.now < profile.validUntil
  (rows.mergeSort fun a b => b.profileVersion < a.profileVersion ∨
    (a.profileVersion = b.profileVersion ∧ (b.validFrom < a.validFrom ∨
      (a.validFrom = b.validFrom ∧ a.profileId.asU128.toNat ≤ b.profileId.asU128.toNat)))).head?

def loadBillingSnapshot (db : Db) (model : SelectedModel) (input output : Int) :
    ApiResult BillingSnapshot :=
  match currentBillingProfile db model.id model.weightsHash with
  | none => .error billingProfileUnavailable
  | some profile => do
      rejectIf (profile.modelWeightsHash ≠ model.weightsHash) billingProfileUnavailable
      BillingSnapshot.calculate profile input output

/-- The largest 32-bit attempt number. -/
def maxI32 : Int := 2147483647

/-- `saturating_add(1)` on a non-negative 32-bit number. -/
def saturatingSuccI32 (value : Int) : Int := min (value + 1) maxI32

/-- `max_job_retries.saturating_add(1).max(1)`. -/
def maxAttemptsOf (maxJobRetries : Int) : Int := max (saturatingSuccI32 maxJobRetries) 1

/-- `saturating_sub` on 64-bit words. -/
def saturatingSubI64 (left right : Int) : Int :=
  max (-9223372036854775808) (min (left - right) 9223372036854775807)

namespace Db

/-- `INSERT INTO jobs`, with the constraints that look at other rows or at the
reservation. -/
def insertJob (db : Db) (job : Job) : ApiResult Db := do
  rejectIf (job.reservedCostMicro ≤ 0 ∨ job.maxAttempts ≤ 0 ∨
    job.reservedCostMicro ≠ ceilQuotient (job.billing.baseCostMicro * 1500) 1000) .internal
  rejectIf (db.jobs.find job.id ≠ none) .internal
  rejectIf (∃ other ∈ db.jobs.rows, other.userId = job.userId ∧
    other.idempotencyKey = job.idempotencyKey) .internal
  rejectIf (∃ route ∈ job.regulatedRouteId, ∃ other ∈ db.jobs.rows,
    other.regulatedRouteId = some route) .internal
  return db.putJob job

/-- The job a user has already created under a key. -/
def createdUnder (db : Db) (userId : Uuid) (idempotencyKey : String) : Option Job :=
  db.jobs.rows.find? fun job => job.userId = userId ∧ job.idempotencyKey = idempotencyKey

end Db

/-- Lock the account, compare and reserve. -/
def reserveForJob (db : Db) (userId : Uuid) (reservation : Int) : ApiResult Db := do
  let account ← fetchOne (db.ledger.accounts.find userId)
  rejectIf (saturatingSubI64 account.spendableMicro account.reservedMicro < reservation)
    .insufficientQuota
  db.takeReservation account reservation

/-- A job row with the defaults of its columns. -/
def newJob (db : Db) (id userId modelId : Uuid) (idempotencyKey payload : String)
    (reservation maxAttempts : Int) (billing : JobBillingSnapshot) : Job where
  id
  userId
  modelId
  modelInstanceId := none
  idempotencyKey
  status := .queued
  encryptedPayload := payload
  tags := []
  estimatedInputTokens := billing.authorizedInputTokens
  maxOutputTokens := billing.authorizedMaxOutputTokens
  reservedCostMicro := reservation
  priority := 0
  leasedToNodeId := none
  leaseExpiresAt := none
  attemptCount := 0
  maxAttempts
  availableAt := db.now
  createdAt := db.now
  confidentialityMode := .standard
  regulatedRouteId := none
  regulatedNodeId := none
  attestationReportId := none
  standardRequestFingerprint := none
  resultCiphertext := none
  resultIdempotencyKey := none
  resultTelemetryFingerprint := none
  actualInputTokens := none
  actualOutputTokens := none
  speedClass := .standard
  billing

def existingStandardResponse (existing : Job) (requestFingerprint : String) :
    ApiResult CreateJobResponse := do
  rejectIf (existing.standardRequestFingerprint ≠ some requestFingerprint)
    (.conflict "idempotency_binding_mismatch" "Standard 创建幂等键已绑定到不同请求内容")
  return ⟨existing.id, existing.status, existing.modelId, existing.reservedCostMicro, true⟩

section Create
variable (env : Services)

/-- The part of `create_job_authenticated` that follows the replay check. -/
def createStandardJob (db : Db) (principal : Principal) (request : CreateJobRequest)
    (validated : ValidatedStandardJob) (jobId : Uuid) :
    ApiResult (Db × CreateJobResponse) := do
  env.assessJobCreation db principal request.idempotencyKey
  let speedModel ← env.parseSpeedQualifiedModel request.virtualModel
  let model ← env.selectModel db speedModel request
  let billing ← loadBillingSnapshot db model request.estimatedInputTokens
    request.maxOutputTokens
  let admitted ← reserveForJob db principal.userId billing.reservationMicro
  let payload ← env.encryptForStorage jobId .payload request.encryptedPayload
  let maxAttempts := if validated.stream = true then 1 else maxAttemptsOf env.maxJobRetries
  let inserted ← admitted.insertJob
    { newJob db jobId principal.userId model.id request.idempotencyKey payload
        billing.reservationMicro maxAttempts billing.frozen with
      tags := request.tags
      priority := request.priority
      standardRequestFingerprint := some validated.requestFingerprint
      speedClass := speedModel.speedClass }
  return (inserted, ⟨jobId, .queued, model.id, billing.reservationMicro, false⟩)

def createJobAuthenticated (db : Db) (principal : Principal) (request : CreateJobRequest)
    (jobId : Uuid) : ApiResult (Db × CreateJobResponse) := do
  let validated ← env.validateCreateJob request
  match db.createdUnder principal.userId request.idempotencyKey with
  | some existing => return (db, ← existingStandardResponse existing validated.requestFingerprint)
  | none => createStandardJob env db principal request validated jobId

/-- The rows that a prepared route is joined with. -/
structure RouteRows where
  model : Model
  modelInstance : ModelInstance
  node : Node
  report : AttestationReport

def routeRows (workers : Workers) (route : RegulatedRoute) : Option RouteRows := do
  let model ← (workers.models.find route.modelId).filter fun model => model.enabled
  let modelInstance ← workers.modelInstances.find route.modelInstanceId
  let node ← workers.nodes.find route.nodeId
  let report ← workers.attestationReports.find route.attestationReportId
  return ⟨model, modelInstance, node, report⟩

def ninetySeconds : Int := 90000000

/-- The node, the model and the report of a route are still the ones it was prepared for. -/
def RouteRows.Current (rows : RouteRows) (workers : Workers) (route : RegulatedRoute)
    (nowUtc : Int) : Prop :=
  nowUtc < route.expiresAt ∧ rows.modelInstance.status = .published ∧
    workers.quarantined rows.modelInstance.id = false ∧
    rows.modelInstance.nodeId = route.nodeId ∧ rows.node.status = .online ∧
    (∃ seen ∈ rows.node.lastSeenAt, nowUtc - ninetySeconds < seen) ∧
    rows.node.attestationReportId = some route.attestationReportId ∧
    (∃ expiry ∈ rows.node.trustExpiresAt, nowUtc < expiry) ∧
    rows.report.status = .verified ∧ rows.report.keyOrigin = .teeRuntime ∧
    rows.report.modelInstanceId = some route.modelInstanceId ∧
    rows.report.nodeId = route.nodeId ∧ rows.report.modelHash = some rows.model.weightsHash ∧
    nowUtc < rows.report.expiresAt ∧
    ∃ expiry ∈ rows.report.collateralExpiresAt, nowUtc < expiry

instance (rows : RouteRows) (workers : Workers) (route : RegulatedRoute) (nowUtc : Int) :
    Decidable (rows.Current workers route nowUtc) := inferInstanceAs (Decidable (_ ∧ _))

/-- The part of `create_regulated_job` that follows the replay check. -/
def consumeRoute (db : Db) (principal : Principal) (request : CreateRegulatedJobRequest)
    (requestFingerprint : String) (jobId : Uuid) (nowUtc : Int) :
    ApiResult (Db × CreateJobResponse) := do
  env.assessJobCreation db principal request.idempotencyKey
  match db.workers.routes.find request.routeId with
  | none => .error (.notFound "Regulated prepared route")
  | some route =>
  match routeRows db.workers route with
  | none => .error (.notFound "Regulated prepared route")
  | some rows => do
      rejectIf (route.userId ≠ principal.userId) (.forbidden "无权消费该 Regulated route")
      rejectIf (route.status ≠ .prepared)
        (.conflict "regulated_route_replay" "Regulated route 已消费或过期，拒绝重放")
      rejectIf (¬ rows.Current db.workers route nowUtc)
        (.attestationFailed "prepared route 的节点、模型或硬件报告在消费前已失效")
      let billing ← BillingSnapshot.fromFrozenRow route.billing rows.model.weightsHash
      let capacity ← env.checkReservedCapacityAndPolicy db route
      rejectIf (capacity = false)
        (.policyRejected "prepared route 的固定节点在消费前已满载或不再满足本机策略")
      rejectIf (db.workers.quarantined route.modelInstanceId = true)
        (.attestationFailed "prepared route 的固定模型实例已被 canary 风控隔离")
      rejectIf (request.envelopeReportId ≠ route.attestationReportId ∨
          request.envelopeModelInstanceId ≠ route.modelInstanceId ∨
          rows.report.ephemeralPublicKey = some request.envelopeSenderPublicKey)
        (.attestationFailed
          "请求 envelope 与 route/report/model 绑定不一致或使用了错误发送方公钥")
      rejectIf ((utf8 request.opaqueEnvelope).length > 900000)
        (.badRequest "invalid_regulated_job" "Regulated envelope 超过任务载荷上限")
      rejectIf (billing.frozen.authorizedInputTokens ≠ route.estimatedInputTokens ∨
          billing.frozen.authorizedMaxOutputTokens ≠ route.maxOutputTokens)
        billingProfileUnavailable
      let admitted ← reserveForJob db principal.userId billing.reservationMicro
      let inserted ← admitted.insertJob
        { newJob db jobId principal.userId route.modelId request.idempotencyKey
            request.opaqueEnvelope billing.reservationMicro (maxAttemptsOf env.maxJobRetries)
            billing.frozen with
          modelInstanceId := some route.modelInstanceId
          tags := route.tags
          priority := route.priority
          confidentialityMode := .regulated
          regulatedRouteId := some route.id
          regulatedNodeId := some route.nodeId
          attestationReportId := some route.attestationReportId }
      rejectIf (route.expiresAt ≤ db.now)
        (.conflict "regulated_route_replay" "Regulated route 已被并发消费或刚刚过期")
      let consumed := { route with
        status := .consumed
        jobId := some jobId
        createRequestFingerprint := some requestFingerprint }
      let workers := { db.workers with routes := db.workers.routes.set consumed }
      return ({ inserted with workers },
        ⟨jobId, .queued, route.modelId, billing.reservationMicro, false⟩)

def createRegulatedJob (db : Db) (principal : Principal)
    (request : CreateRegulatedJobRequest) (jobId : Uuid) (nowUtc : Int) :
    ApiResult (Db × CreateJobResponse) := do
  let requestFingerprint ← env.validateRegulatedJob request
  match db.createdUnder principal.userId request.idempotencyKey with
  | some existing => do
      let stored := db.workers.routes.rows.find? fun route =>
        existing.regulatedRouteId = some route.id
      rejectIf (existing.regulatedRouteId ≠ some request.routeId ∨
          stored.bind RegulatedRoute.createRequestFingerprint ≠ some requestFingerprint)
        (.conflict "idempotency_binding_mismatch"
          "Regulated 创建幂等键已绑定到不同 route 或 envelope")
      return (db, ⟨existing.id, existing.status, existing.modelId, existing.reservedCostMicro,
        true⟩)
  | none => consumeRoute env db principal request requestFingerprint jobId nowUtc

end Create

end MindOne.Coordinator

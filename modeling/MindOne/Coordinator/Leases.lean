import MindOne.Coordinator.Challenges

/-!
# Claiming, renewing and failing jobs

A claim first runs both reapers, then offers hidden work, then takes the first
waiting job that routing gives to the calling node. Between the routing query
and the lease other transactions may commit, and the claim looks again at its
instance before it writes.
-/

namespace MindOne.Coordinator

open CheckedArithmetic Accounting Database KeyedTable

structure ClaimJobRequest where
  nodeId : Uuid
  modelInstanceId : Uuid

structure JobFailResponse where
  jobId : Uuid
  accepted : Bool
  idempotentReplay : Bool
  deriving DecidableEq, Repr

/-- What one claim sees of the clock, of chance and of other transactions: the
rows they hold at its statements, and its instance when it looks again. -/
structure ClaimContext where
  nowUtc : Int
  lockedExhausted : Uuid → Bool
  lockedInvalid : Uuid → Bool
  lockedChallenges : Uuid → Bool
  lockedCandidates : Uuid → Bool
  hidden : Option ChallengeDraw
  recheckQuarantined : Bool
  recheckInstance : Option ModelInstance

inductive ClaimOutcome where
  | noContent
  | hidden (response : ClaimJobResponse)
  | job (response : ClaimJobResponse)

/-- Waiting for a lease: never leased, given back, or left by an expired lease. -/
def Job.AwaitsClaim (job : Job) (now : Int) : Prop :=
  (job.status = .queued ∨ job.status = .retry ∨
      (job.status = .leased ∧ job.LeaseExpired now)) ∧
    job.availableAt ≤ now ∧ job.attemptCount < job.maxAttempts

instance (job : Job) (now : Int) : Decidable (job.AwaitsClaim now) :=
  inferInstanceAs (Decidable (_ ∧ _))

/-- `load.active_count`: what a node is already bound to, apart from this job. -/
def Db.loadCount (db : Db) (job : Job) (nodeId : Uuid) : Nat :=
  (db.jobs.rows.countP fun active => active.id ≠ job.id ∧
    (active.LeasedBy nodeId db.now ∨
      (active.confidentialityMode = .regulated ∧ active.regulatedNodeId = some nodeId ∧
        (active.status = .queued ∨ active.status = .retry)))) +
  (db.workers.routes.rows.countP fun route =>
    route.nodeId = nodeId ∧ route.status = .prepared ∧ db.now < route.expiresAt) +
  db.workers.challenges.rows.countP fun challenge => challenge.LeasedBy nodeId db.now

/-- A regulated job only runs where its report still binds it. -/
def Job.ReportBinds (job : Job) (db : Db) (mi : ModelInstance) : Prop :=
  some mi.id = job.modelInstanceId ∧ some mi.nodeId = job.regulatedNodeId ∧
    ∃ report ∈ job.attestationReportId.bind db.workers.attestationReports.find,
      report.nodeId = mi.nodeId ∧ report.modelInstanceId = some mi.id ∧
      (∃ model ∈ db.workers.models.find job.modelId,
        report.modelHash = some model.weightsHash) ∧
      report.status = .verified ∧ report.keyOrigin = .teeRuntime ∧ db.now < report.expiresAt ∧
      ∃ expiry ∈ report.collateralExpiresAt, db.now < expiry

instance (job : Job) (db : Db) (mi : ModelInstance) : Decidable (job.ReportBinds db mi) :=
  inferInstanceAs (Decidable (_ ∧ _ ∧
    ∃ report ∈ job.attestationReportId.bind db.workers.attestationReports.find, _ ∧ _))

/-- The slots that the speed class of a job asks for. -/
def SpeedClass.Fits (speed : SpeedClass) (load maxConcurrent : Nat) : Prop :=
  match speed with
  | .slow => load < maxConcurrent
  | .fast => load = 0
  | .standard => load = 0

instance (speed : SpeedClass) (load maxConcurrent : Nat) :
    Decidable (speed.Fits load maxConcurrent) :=
  match speed with
  | .slow => inferInstanceAs (Decidable (load < maxConcurrent))
  | .fast => inferInstanceAs (Decidable (load = 0))
  | .standard => inferInstanceAs (Decidable (load = 0))

section Routing
variable (env : Services)

/-- What routing asks of a node for a job. -/
def Job.NodeFits (job : Job) (db : Db) (node : Node) (policy : NodePolicyRow)
    (metrics : Option NodeMetrics) : Prop :=
  node.status = .online ∧ (∃ seen ∈ node.lastSeenAt, db.now - ninetySeconds < seen) ∧
    (∀ rtt ∈ metrics.bind NodeMetrics.coordinatorRttMs, 1 ≤ rtt ∧ rtt ≤ 1000) ∧
    (∀ requested ∈ job.tags, ∀ rejected ∈ policy.rejectTags,
      env.lower requested ≠ env.lower rejected) ∧
    job.speedClass.Fits (max (db.loadCount job node.id)
      (metrics.elim 0 NodeMetrics.currentConcurrent)) policy.maxConcurrent ∧
    (∀ limit ∈ policy.gpuTempLimitC, ∃ temperature ∈ metrics.bind NodeMetrics.gpuTempC,
      temperature < (limit : Int)) ∧
    (policy.vramReserveMib = 0 ∨ ∃ used ∈ metrics.bind NodeMetrics.vramUsedMib,
      ∃ total ∈ metrics.bind NodeMetrics.vramTotalMib,
        (policy.vramReserveMib : Int) ≤ total - used)

instance (job : Job) (db : Db) (node : Node) (policy : NodePolicyRow)
    (metrics : Option NodeMetrics) : Decidable (job.NodeFits env db node policy metrics) :=
  inferInstanceAs (Decidable (_ ∧ _ ∧
    (∀ rtt ∈ metrics.bind NodeMetrics.coordinatorRttMs, 1 ≤ rtt ∧ rtt ≤ 1000) ∧ _ ∧ _ ∧
    (∀ limit ∈ policy.gpuTempLimitC, ∃ temperature ∈ metrics.bind NodeMetrics.gpuTempC,
      temperature < (limit : Int)) ∧
    (policy.vramReserveMib = 0 ∨ ∃ used ∈ metrics.bind NodeMetrics.vramUsedMib,
      ∃ total ∈ metrics.bind NodeMetrics.vramTotalMib,
        (policy.vramReserveMib : Int) ≤ total - used)))

/-- The instances that routing considers for a job. -/
def Job.Routable (job : Job) (db : Db) (mi : ModelInstance) : Prop :=
  mi.modelId = job.modelId ∧ mi.status = .published ∧ db.workers.quarantined mi.id = false ∧
    (job.confidentialityMode = .regulated → job.ReportBinds db mi) ∧
    ∃ node ∈ db.workers.nodes.find mi.nodeId,
      ∃ policy ∈ db.workers.nodePolicies.find mi.nodeId,
        job.NodeFits env db node policy (db.workers.nodeMetrics.find mi.nodeId)

instance (job : Job) (db : Db) (mi : ModelInstance) : Decidable (job.Routable env db mi) :=
  inferInstanceAs (Decidable (_ ∧ _ ∧ _ ∧ _ ∧
    ∃ node ∈ db.workers.nodes.find mi.nodeId,
      ∃ policy ∈ db.workers.nodePolicies.find mi.nodeId,
        job.NodeFits env db node policy (db.workers.nodeMetrics.find mi.nodeId)))

/-- One instance of each node, the one with the smallest identifier. -/
def nodeCohort (db : Db) (job : Job) : List ModelInstance :=
  let ranked := db.workers.modelInstances.rows.filter fun mi => job.Routable env db mi
  ranked.filter fun mi => ∀ other ∈ ranked, other.nodeId = mi.nodeId →
    mi.id.asU128.toNat ≤ other.id.asU128.toNat

/-- The instance that routing selects for a job. -/
def routedInstance (db : Db) (job : Job) : Option ModelInstance :=
  (env.prioritize db job (nodeCohort env db job)).head?

/-- The job may be leased to this instance of this node. -/
def Job.OfferedTo (job : Job) (db : Db) (request : ClaimJobRequest) : Prop :=
  job.AwaitsClaim db.now ∧
    (∃ mi ∈ routedInstance env db job,
      mi.nodeId = request.nodeId ∧ mi.id = request.modelInstanceId) ∧
    ∃ model ∈ db.workers.models.find job.modelId, model.enabled = true

instance (job : Job) (db : Db) (request : ClaimJobRequest) :
    Decidable (job.OfferedTo env db request) :=
  inferInstanceAs (Decidable (_ ∧
    (∃ mi ∈ routedInstance env db job,
      mi.nodeId = request.nodeId ∧ mi.id = request.modelInstanceId) ∧
    ∃ model ∈ db.workers.models.find job.modelId, model.enabled = true))

/-- `ORDER BY priority DESC, created_at ASC`. -/
def Job.claimedBefore (a b : Job) : Bool :=
  b.priority < a.priority || (a.priority == b.priority && a.createdAt ≤ b.createdAt)

/-- The candidate query, without the rows that other transactions hold. -/
def claimCandidate (db : Db) (request : ClaimJobRequest) (locked : Uuid → Bool) : Option Job :=
  ((db.jobs.rows.filter fun job => job.OfferedTo env db request ∧ locked job.id = false
    ).mergeSort Job.claimedBefore).head?

end Routing

/-- A claim over an expired lease ends the attempt that held it. -/
def expirePreviousAttempt (db : Db) (job : Job) : Db :=
  if 0 < job.attemptCount then
    db.updateLeasedAttempt job.id job.attemptCount fun attempt =>
      { attempt with status := .expired, finishedAt := some db.now }
  else db

/-- The instance of a claim was quarantined or unpublished after the query. -/
def ClaimContext.InstanceLost (context : ClaimContext) : Prop :=
  context.recheckQuarantined = true ∨
    ∀ mi ∈ context.recheckInstance, mi.status ≠ .published

instance (context : ClaimContext) : Decidable context.InstanceLost :=
  inferInstanceAs (Decidable (_ ∨ ∀ mi ∈ context.recheckInstance, mi.status ≠ .published))

section Operations
variable (env : Services)

/-- The payload as a worker receives it. -/
def claimedPayload (job : Job) : ApiResult String :=
  match job.confidentialityMode with
  | .standard => env.decryptFromStorage job.id .payload job.encryptedPayload
  | .regulated => .ok job.encryptedPayload

/-- The writes and the answer of a claim that goes through. -/
def leaseJob (db : Db) (principal : Principal) (request : ClaimJobRequest) (job : Job)
    (nowUtc : Int) : ApiResult (Db × ClaimJobResponse) := do
  let attempt := saturatingSuccI32 job.attemptCount
  let leaseExpiresAt := nowUtc + env.leaseDuration
  let leased := db.putJob { job with
    status := .leased
    leasedToNodeId := some request.nodeId
    modelInstanceId := some request.modelInstanceId
    leaseExpiresAt := some leaseExpiresAt
    attemptCount := attempt }
  let inserted ← leased.insertJobAttempt {
    jobId := job.id
    nodeId := request.nodeId
    attemptNumber := attempt
    status := .leased
    leaseStartedAt := db.now
    leaseExpiresAt
    finishedAt := none
    errorClass := none
    errorMessage := none
    claimDeviceBindingVersion := some deviceBindingVersion
    claimDeviceKeyId := some principal.deviceKeyId }
  let encryptedPayload ← claimedPayload env job
  return (inserted, {
    jobId := job.id
    modelInstanceId := request.modelInstanceId
    encryptedPayload
    tags := job.tags
    estimatedInputTokens := job.estimatedInputTokens
    maxOutputTokens := job.maxOutputTokens
    attempt
    leaseExpiresAt
    confidentiality := job.confidentialityMode
    regulatedRouteId := job.regulatedRouteId
    attestationReportId := job.attestationReportId })

/-- The part of `claim_job` that follows the candidate query. -/
def claimOrdinaryJob (db : Db) (locked : LockedNode) (principal : Principal)
    (request : ClaimJobRequest) (context : ClaimContext) : ApiResult (Db × ClaimOutcome) :=
  match claimCandidate env db request context.lockedCandidates with
  | none => .ok (db, .noContent)
  | some job => do
      enforceCurrentPolicy env db locked none job.tags
      let expired := expirePreviousAttempt db job
      if context.InstanceLost then return (expired, .noContent)
      else
        let (leased, response) ← leaseJob env expired principal request job context.nowUtc
        return (leased, .job response)

/-- The part of `claim_job` that comes before the candidate query: the node, both
reapers and hidden work. -/
def beginClaim (db : Db) (principal : Principal) (request : ClaimJobRequest)
    (context : ClaimContext) : ApiResult (LockedNode × Db × Option ClaimJobResponse) := do
  let locked ← lockNode db request.nodeId
  requireNodeDeviceBinding principal locked.node
  rejectIf (locked.node.status ≠ .online) (.policyRejected "节点当前未处于在线接单状态")
  let reaped ← reapExpiredTerminalLeases context.lockedExhausted db
  let swept ← reapInvalidRegulatedJobs context.lockedInvalid reaped
  enforceCurrentPolicy env swept locked none []
  let (offered, hidden) ← maybeClaimHiddenJob env swept principal request.nodeId
    request.modelInstanceId context.lockedChallenges context.hidden
  return (locked, offered, hidden)

def claimJob (db : Db) (principal : Principal) (request : ClaimJobRequest)
    (context : ClaimContext) : ApiResult (Db × ClaimOutcome) := do
  let (locked, offered, hidden) ← beginClaim env db principal request context
  match hidden with
  | some response => return (offered, .hidden response)
  | none => claimOrdinaryJob env offered locked principal request context

/-- The job and its current attempt, while the lease of the node is unexpired. -/
def leasedTask (db : Db) (jobId nodeId : Uuid) : Option (Job × JobAttempt) := do
  let job ← (db.jobs.find jobId).filter fun job => job.LeasedBy nodeId db.now
  let attempt ← db.jobAttempts.find (jobId, job.attemptCount)
  return (job, attempt)

/-- `UPDATE job_attempts SET lease_expires_at` over the leased attempts of a job. -/
def Db.extendAttempts (db : Db) (jobId : Uuid) (leaseExpiresAt : Int) : Db :=
  let extend (attempt : JobAttempt) : JobAttempt :=
    if attempt.jobId = jobId ∧ attempt.status = .leased then { attempt with leaseExpiresAt }
    else attempt
  have hkey (attempt : JobAttempt) : (extend attempt).key = attempt.key := by
    simp only [extend]
    split <;> rfl
  { db with jobAttempts := db.jobAttempts.mapRows extend hkey }

/-- The part of `renew_job` for an ordinary job. An invalid regulated binding ends
the job, and this is committed although the answer is an error. -/
def renewOrdinaryJob (db : Db) (locked : LockedNode) (principal : Principal) (jobId : Uuid)
    (nowUtc : Int) : ApiResult (Db × ApiResult Int) :=
  match leasedTask db jobId locked.node.id with
  | none => .error leaseNotRenewable
  | some (job, attempt) => do
      rejectIf (¬ attempt.BoundTo principal principal.userId) leaseNotRenewable
      if job.confidentialityMode = .regulated ∧
          ¬ regulatedLeaseBindingValid db job locked.node.id then
        let failed ← failRegulatedLeaseAttestation db jobId
          "Regulated 续租时硬件报告、固定节点或模型绑定已失效"
        return (failed, .error (.attestationFailed
          "Regulated 硬件信任已失效；任务已终止、reservation 已释放且未计费"))
      else
        enforceCurrentPolicy env db locked (some jobId) job.tags
        let leaseExpiresAt := nowUtc + env.leaseDuration
        let renewed := db.putJob { job with leaseExpiresAt := some leaseExpiresAt }
        return (renewed.extendAttempts jobId leaseExpiresAt, .ok leaseExpiresAt)

/-- The part of `renew_job` for a challenge. -/
def renewHidden (db : Db) (locked : LockedNode) (principal : Principal) (jobId : Uuid)
    (nowUtc : Int) : ApiResult (Db × ApiResult Int) := do
  match ← renewHiddenJob env db principal jobId locked.node.id nowUtc with
  | (expired, .expired) => return (expired, .error leaseNotRenewable)
  | (renewed, .renewed leaseExpiresAt) => do
      enforceCurrentPolicy env renewed locked (some jobId) []
      return (renewed, .ok leaseExpiresAt)

def renewJob (db : Db) (principal : Principal) (jobId nodeId : Uuid) (nowUtc : Int) :
    ApiResult (Db × ApiResult Int) := do
  let kind ← workItemKind db jobId
  let locked ← lockNode db nodeId
  requireNodeDeviceBinding principal locked.node
  rejectIf (locked.node.status = .offline) (.policyRejected "节点策略当前暂停执行")
  match kind with
  | .hidden => renewHidden env db locked principal jobId nowUtc
  | _ => renewOrdinaryJob env db locked principal jobId nowUtc

end Operations

def JobErrorClass.key : JobErrorClass → String
  | .engine => "engine"
  | .model => "model"
  | .policy => "policy"
  | .timeout => "timeout"
  | .resourceExhausted => "resource_exhausted"
  | .nodeDisconnected => "node_disconnected"
  | .invalidRequest => "invalid_request"
  | .internal => "internal"
  | .attestation => "attestation"

def leaseOfOtherNode : ApiError := .forbidden "任务租约不属于当前节点"

/-- The attempt of a job whose failure report was recorded under a key. -/
def recordedAttempt (db : Db) (jobId : Uuid) (idempotencyKey : String) :
    Option (JobAttempt × Node) := do
  let attempt ← db.jobAttempts.rows.find? fun attempt =>
    attempt.jobId = jobId ∧ attempt.resultIdempotencyKey = some idempotencyKey
  let node ← db.workers.nodes.find attempt.nodeId
  return (attempt, node)

/-- The answer to a report whose key is already recorded. -/
def replayFailure (principal : Principal) (jobId : Uuid) (request : JobFailRequest)
    (attempt : JobAttempt) (node : Node) : ApiResult JobFailResponse := do
  rejectIf (node.userId ≠ principal.userId ∨ attempt.nodeId ≠ request.nodeId ∨
    ¬ attempt.BoundTo principal node.userId) leaseOfOtherNode
  rejectIf (attempt.errorClass ≠ some request.errorClass.key ∨
      attempt.errorMessage ≠ some request.errorMessage ∨
      attempt.retryableRequested ≠ some request.retryable)
    (.conflict "idempotency_binding_mismatch" "失败报告幂等键已绑定到不同节点或失败内容")
  return ⟨jobId, true, true⟩

/-- `(attempt_count * 2).clamp(1, 60)` seconds. -/
def backoff (attemptCount : Int) : Int := min (max (attemptCount * 2) 1) 60 * 1000000

/-- A job that is given back after a retryable failure. -/
def Job.retried (job : Job) (nowUtc : Int) : Job :=
  { job with
    status := .retry
    leasedToNodeId := none
    modelInstanceId := if job.confidentialityMode = .regulated then job.modelInstanceId else none
    leaseExpiresAt := none
    availableAt := nowUtc + backoff job.attemptCount }

/-- The rows that a failure report is checked against. -/
structure LeaseRows where
  job : Job
  node : Node
  attempt : JobAttempt

def leaseRows (db : Db) (jobId : Uuid) : Option LeaseRows := do
  let job ← db.jobs.find jobId
  let node ← job.leasedToNodeId.bind db.workers.nodes.find
  let attempt ← db.jobAttempts.find (jobId, job.attemptCount)
  return ⟨job, node, attempt⟩

/-- The job is given back, or it ends and its reservation is released. -/
def finishFailure (db : Db) (job : Job) (request : JobFailRequest) (nowUtc : Int) :
    ApiResult Db :=
  if request.retryable = true ∧ job.attemptCount < job.maxAttempts then
    .ok (db.putJob (job.retried nowUtc))
  else do
    let released ← db.releaseReservation job.userId job.reservedCostMicro
    return released.putJob { job with status := .failed }

/-- What a failure report writes to an attempt. -/
def JobAttempt.recordFailure (attempt : JobAttempt) (request : JobFailRequest) (now : Int) :
    JobAttempt :=
  { attempt with
    status := .failed
    finishedAt := some now
    errorClass := some request.errorClass.key
    errorMessage := some request.errorMessage
    resultIdempotencyKey := some request.idempotencyKey
    retryableRequested := some request.retryable }

/-- The attempt ends, and the job is given back or ends with it. -/
def recordFailure (db : Db) (job : Job) (request : JobFailRequest) (nowUtc : Int) :
    ApiResult Db := do
  db.checkAttemptKey job.id job.attemptCount request.idempotencyKey
  let failed := db.updateLeasedAttempt job.id job.attemptCount fun attempt =>
    attempt.recordFailure request db.now
  let ended ← finishFailure failed job request nowUtc
  return ended.finalizeDrainingInstance job.modelInstanceId

/-- The part of `job_fail` that follows the replay check. -/
def reportFailure (db : Db) (principal : Principal) (jobId : Uuid) (request : JobFailRequest)
    (nowUtc : Int) : ApiResult (Db × JobFailResponse) :=
  match leaseRows db jobId with
  | none => .error (.notFound "任务")
  | some rows => do
      rejectIf (rows.node.userId ≠ principal.userId ∨ rows.node.id ≠ request.nodeId ∨
        ¬ rows.attempt.BoundTo principal rows.node.userId) leaseOfOtherNode
      rejectIf (rows.job.status ≠ .leased)
        (.conflict "job_not_leased" "任务当前不接受失败报告")
      rejectIf (¬ rows.job.LeaseValid db.now) leaseExpired
      return (← recordFailure db rows.job request nowUtc, ⟨jobId, true, false⟩)

/-- The part of `job_fail` for an ordinary job. -/
def failOrdinaryJob (db : Db) (principal : Principal) (jobId : Uuid) (request : JobFailRequest)
    (nowUtc : Int) : ApiResult (Db × JobFailResponse) :=
  match recordedAttempt db jobId request.idempotencyKey with
  | some (attempt, node) => do
      return (db, ← replayFailure principal jobId request attempt node)
  | none => reportFailure db principal jobId request nowUtc

def verifyNodeOwner (db : Db) (nodeId : Uuid) (principal : Principal) : ApiResult Unit :=
  match db.workers.nodes.find nodeId with
  | none => .error (.notFound "节点")
  | some node => requireNodeDeviceBinding principal node

def jobFail (env : Services) (db : Db) (principal : Principal) (jobId : Uuid)
    (request : JobFailRequest) (nowUtc : Int) :
    ApiResult (Db × ApiResult JobFailResponse) := do
  env.validateFailureReport request
  verifyNodeOwner db request.nodeId principal
  match ← workItemKind db jobId with
  | .hidden => do
      let (submitted, answer) ← submitUnlessExpired env db principal jobId request.nodeId nowUtc
        fun swept => submitHiddenJobFailure env swept principal jobId request nowUtc
      return (submitted, answer.map fun replay => ⟨jobId, true, replay⟩)
  | _ => do
      let (failed, response) ← failOrdinaryJob db principal jobId request nowUtc
      return (failed, .ok response)

end MindOne.Coordinator

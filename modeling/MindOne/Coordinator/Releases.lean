import MindOne.Coordinator.Requests

/-!
# Ending a job without settling it

Four paths end a job and give its reservation back: the reaper of exhausted
expired leases, the reaper of regulated jobs whose binding was lost while they
waited, the termination of a regulated lease, and the gateway that gives up
waiting.
-/

namespace MindOne.Coordinator

open CheckedArithmetic Accounting Database KeyedTable

/-- `lease_expires_at <= now()`. -/
def Job.LeaseExpired (job : Job) (now : Int) : Prop := ∃ expiry ∈ job.leaseExpiresAt, expiry ≤ now

instance (job : Job) (now : Int) : Decidable (job.LeaseExpired now) :=
  inferInstanceAs (Decidable (∃ expiry ∈ job.leaseExpiresAt, expiry ≤ now))

/-- `lease_expires_at > now()`. -/
def Job.LeaseValid (job : Job) (now : Int) : Prop := ∃ expiry ∈ job.leaseExpiresAt, now < expiry

instance (job : Job) (now : Int) : Decidable (job.LeaseValid now) :=
  inferInstanceAs (Decidable (∃ expiry ∈ job.leaseExpiresAt, now < expiry))

/-- `ORDER BY user_id,id`. -/
def Job.reapedBefore (a b : Job) : Bool :=
  a.userId.asU128.toNat < b.userId.asU128.toNat ||
    (a.userId = b.userId && a.id.asU128.toNat ≤ b.id.asU128.toNat)

/-- At most a hundred of the chosen jobs whose rows no other transaction holds. -/
def Db.reapBatch (db : Db) (locked : Uuid → Bool) (chosen : Job → Prop)
    [DecidablePred chosen] : List Job :=
  ((db.jobs.rows.filter fun job => chosen job ∧ locked job.id = false).mergeSort
    Job.reapedBefore).take 100

/-- Leased, expired, and without attempts left. -/
def Job.Exhausted (job : Job) (now : Int) : Prop :=
  job.status = .leased ∧ job.LeaseExpired now ∧ job.maxAttempts ≤ job.attemptCount

instance (job : Job) (now : Int) : Decidable (job.Exhausted now) :=
  inferInstanceAs (Decidable (_ ∧ _))

/-- What the loop of `reap_expired_terminal_leases` does with one job. -/
def reapExpiredLease (db : Db) (job : Job) : ApiResult Db := do
  let released ← db.releaseReservation job.userId job.reservedCostMicro
  let expired := released.updateLeasedAttempt job.id job.attemptCount fun attempt =>
    { attempt with
      status := .expired
      finishedAt := some db.now
      errorClass := some "timeout"
      errorMessage := some "租约过期且已达到最大尝试次数" }
  return (expired.putJob { job with status := .failed }).finalizeDrainingInstance
    job.modelInstanceId

def reapExpiredTerminalLeases (locked : Uuid → Bool) (db : Db) : ApiResult Db := do
  let reaped ← (db.reapBatch locked fun job => job.Exhausted db.now).foldlM reapExpiredLease db
  return reaped.unpublishDrained fun _ => true

/-- The rows that a regulated job is joined with; a missing row ends the join. -/
structure BindingRows where
  node : Node
  modelInstance : ModelInstance
  report : AttestationReport

def bindingRows (workers : Workers) (job : Job) : Option BindingRows := do
  let node ← job.regulatedNodeId.bind workers.nodes.find
  let modelInstance ← job.modelInstanceId.bind workers.modelInstances.find
  let report ← job.attestationReportId.bind workers.attestationReports.find
  return ⟨node, modelInstance, report⟩

/-- The condition of `reap_invalid_regulated_jobs`. A comparison with a missing
instant is not true. -/
def BindingRows.Lost (rows : BindingRows) (job : Job) (now : Int) : Prop :=
  rows.node.status ≠ .online ∨
    (∃ seen ∈ rows.node.lastSeenAt, seen ≤ now - ninetySeconds) ∨
    rows.node.attestationReportId ≠ job.attestationReportId ∨
    (∃ expiry ∈ rows.node.trustExpiresAt, expiry ≤ now) ∨
    rows.modelInstance.status ≠ .published ∨
    some rows.modelInstance.nodeId ≠ job.regulatedNodeId ∨
    rows.report.status ≠ .verified ∨ rows.report.keyOrigin ≠ .teeRuntime ∨
    rows.report.expiresAt ≤ now ∨ ∃ expiry ∈ rows.report.collateralExpiresAt, expiry ≤ now

instance (rows : BindingRows) (job : Job) (now : Int) : Decidable (rows.Lost job now) :=
  inferInstanceAs (Decidable (_ ∨ _))

/-- A waiting regulated job that cannot be claimed any more. -/
def Job.BindingLost (job : Job) (workers : Workers) (now : Int) : Prop :=
  job.confidentialityMode = .regulated ∧ (job.status = .queued ∨ job.status = .retry) ∧
    ∃ rows ∈ bindingRows workers job, rows.Lost job now

instance (job : Job) (workers : Workers) (now : Int) : Decidable (job.BindingLost workers now) :=
  inferInstanceAs (Decidable (_ ∧ _ ∧ ∃ rows ∈ bindingRows workers job, rows.Lost job now))

/-- The columns of an attempt as an `INSERT` gives them; a column that is not
named is absent. -/
structure NewJobAttempt where
  jobId : Uuid
  nodeId : Uuid
  attemptNumber : Int
  status : AttemptStatus
  leaseStartedAt : Int
  leaseExpiresAt : Int
  finishedAt : Option Int
  errorClass : Option String
  errorMessage : Option String
  claimDeviceBindingVersion : Option Int
  claimDeviceKeyId : Option Uuid

/-- The constraint `job_attempts_claim_device_binding_v1`. -/
def NewJobAttempt.checkClaimDeviceBinding (new : NewJobAttempt) : SqlResult JobAttempt :=
  match new.claimDeviceBindingVersion, new.claimDeviceKeyId with
  | some version, some claimDeviceKeyId =>
      if h : version = deviceBindingVersion then .ok {
          jobId := new.jobId
          nodeId := new.nodeId
          attemptNumber := new.attemptNumber
          status := new.status
          leaseStartedAt := new.leaseStartedAt
          leaseExpiresAt := new.leaseExpiresAt
          finishedAt := new.finishedAt
          errorClass := new.errorClass
          errorMessage := new.errorMessage
          resultIdempotencyKey := none
          retryableRequested := none
          claimDeviceBindingVersion := version
          claimDeviceKeyId
          claimDeviceBinding := h }
      else .error (.checkViolation "job_attempts_claim_device_binding_v1")
  | _, _ => .error (.checkViolation "job_attempts_claim_device_binding_v1")

/-- `INSERT INTO job_attempts`. -/
def Db.insertJobAttempt (db : Db) (new : NewJobAttempt) : ApiResult Db := do
  let attempt ← orInternal new.checkClaimDeviceBinding
  rejectIf (db.jobAttempts.find attempt.key ≠ none) .internal
  return db.putAttempt attempt

/-- What the loop of `reap_invalid_regulated_jobs` does with one job. Its insert
names no device binding. -/
def reapInvalidRegulatedJob (db : Db) (job : Job) : ApiResult Db := do
  let nodeId ← fetchOne job.regulatedNodeId
  let attemptNumber := saturatingSuccI32 job.attemptCount
  let released ← db.releaseReservation job.userId job.reservedCostMicro
  let inserted ← released.insertJobAttempt {
    jobId := job.id
    nodeId
    attemptNumber
    status := .failed
    leaseStartedAt := db.now
    leaseExpiresAt := db.now
    finishedAt := some db.now
    errorClass := some "attestation"
    errorMessage := some "Regulated route 的硬件报告或固定节点绑定已失效"
    claimDeviceBindingVersion := none
    claimDeviceKeyId := none }
  return (inserted.putJob { job with status := .failed, attemptCount := attemptNumber
    }).finalizeDrainingInstance job.modelInstanceId

def reapInvalidRegulatedJobs (locked : Uuid → Bool) (db : Db) : ApiResult Db :=
  (db.reapBatch locked fun job => job.BindingLost db.workers db.now).foldlM
    reapInvalidRegulatedJob db

/-- `regulated_lease_binding_valid`. -/
def regulatedLeaseBindingValid (db : Db) (job : Job) (nodeId : Uuid) : Prop :=
  ∃ rows ∈ bindingRows db.workers job, ∃ model ∈ db.workers.models.find job.modelId,
    job.confidentialityMode = .regulated ∧ job.status = .leased ∧
    job.leasedToNodeId = some nodeId ∧ job.regulatedNodeId = some nodeId ∧
    rows.node.status ≠ .offline ∧
    (∃ seen ∈ rows.node.lastSeenAt, db.now - ninetySeconds < seen) ∧
    rows.node.trustLevel = .enhanced ∧ (∃ expiry ∈ rows.node.trustExpiresAt, db.now < expiry) ∧
    rows.node.attestationReportId = job.attestationReportId ∧
    rows.modelInstance.nodeId = nodeId ∧ rows.modelInstance.modelId = job.modelId ∧
    rows.modelInstance.status ≠ .unpublished ∧
    db.workers.quarantined rows.modelInstance.id = false ∧ model.enabled = true ∧
    rows.report.nodeId = nodeId ∧ rows.report.modelInstanceId = job.modelInstanceId ∧
    rows.report.modelHash = some model.weightsHash ∧ rows.report.status = .verified ∧
    rows.report.keyOrigin = .teeRuntime ∧ db.now < rows.report.expiresAt ∧
    rows.report.collateralCurrent = true ∧
    (∃ expiry ∈ rows.report.collateralExpiresAt, db.now < expiry) ∧
    rows.report.signatureVerified = true ∧ rows.report.certificateChainVerified = true ∧
    rows.report.tcbCurrent = true

instance (db : Db) (job : Job) (nodeId : Uuid) :
    Decidable (regulatedLeaseBindingValid db job nodeId) :=
  inferInstanceAs (Decidable (∃ rows ∈ bindingRows db.workers job,
    ∃ model ∈ db.workers.models.find job.modelId, _ ∧ _))

/-- `fail_regulated_lease_attestation`, on the locked row of the job. -/
def failRegulatedLeaseAttestation (db : Db) (jobId : Uuid) (message : String) :
    ApiResult Db :=
  match db.jobs.find jobId with
  | none => .error (.notFound "任务")
  | some job => do
      rejectIf (job.confidentialityMode ≠ .regulated ∨ job.status ≠ .leased) .internal
      let released ← db.releaseReservation job.userId job.reservedCostMicro
      let attempt ← fetchOne ((released.jobAttempts.find (jobId, job.attemptCount)).filter
        fun attempt => attempt.status = .leased)
      let failed := released.putAttempt { attempt with
        status := .failed
        finishedAt := some db.now
        errorClass := some "attestation"
        errorMessage := some message
        retryableRequested := some false }
      return (failed.putJob { job with status := .failed }).finalizeDrainingInstance
        job.modelInstanceId

/-- `cancel_timed_out_job` of the gateway. -/
def cancelTimedOutJob (db : Db) (principal : Principal) (jobId : Uuid) : ApiResult Db :=
  match (db.jobs.find jobId).filter fun job => job.userId = principal.userId with
  | none => .error (.notFound "任务")
  | some job =>
      if ¬ job.status.Live then .ok db
      else do
        let released ← db.releaseReservation principal.userId job.reservedCostMicro
        let failed := if job.status = .leased then
            released.updateLeasedAttempt jobId job.attemptCount fun attempt =>
              { attempt with
                status := .failed
                finishedAt := some db.now
                errorClass := some "timeout"
                errorMessage := some "公网 OpenAI 网关等待超时并取消任务" }
          else released
        return (failed.putJob { job with status := .cancelled, leaseExpiresAt := none
          }).finalizeDrainingInstance job.modelInstanceId

end MindOne.Coordinator

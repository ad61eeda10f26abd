import MindOne.Coordinator.Leases

/-!
# Settling a job

A result ends a job and moves the price of it. The amounts come from the quote
that was frozen when the job was created; each of the four ledger entries starts
from the balance that is read just before it, so that a consumer who serves its
own job is debited before it is credited.
-/

namespace MindOne.Coordinator

open CheckedArithmetic Accounting Database KeyedTable

/-- The identifiers and instants drawn by one settlement. -/
structure SettlementStamps where
  consumer : Stamp
  nodeQuota : Stamp
  contribution : Stamp
  reserve : Stamp
  receiptId : Uuid

structure SettlementOutcome where
  receiptId : Uuid
  jobId : Uuid
  baseCostMicro : Int
  userDeductionMicro : Int
  nodeQuotaMicro : Int
  contributionMicro : Int
  contributionWeightPpm : Int
  reserveMicro : Int
  settlementHash : String
  idempotentReplay : Bool

/-- The hashes of the four entries of a settlement. -/
structure EntryHashes where
  consumer : String
  nodeQuota : String
  contribution : String
  reserve : String

/-- The amounts of the four entries of a settlement. -/
structure SettlementAmounts where
  baseCostMicro : Int
  userDeductionMicro : Int
  nodeQuotaMicro : Int
  contributionMicro : Int
  contributionWeightPpm : Int
  reserveMicro : Int

/-- The rows that a result is checked against. -/
structure CompletionRows where
  job : Job
  node : Node
  attempt : Option JobAttempt
  model : Model

def completionRows (db : Db) (jobId : Uuid) : Option CompletionRows := do
  let job ← db.jobs.find jobId
  let node ← job.leasedToNodeId.bind db.workers.nodes.find
  let model ← db.workers.models.find job.modelId
  return ⟨job, node, db.jobAttempts.find (jobId, job.attemptCount), model⟩

def TrustLevel.trustClass : TrustLevel → TrustClass
  | .enhanced => .enhanced
  | .standard => .standard
  | .standardLimited => .standard
  | .unverified => .unverified
  | .experimental => .unverified

/-- The frozen quote of a job is complete and still follows from its profile. -/
def Job.billingFromRow (job : Job) : ApiResult JobBillingSnapshot := do
  rejectIf (job.billing.profile.contractVersion ≠ serverReferenceUpperBoundV1)
    (.conflict "billing_contract_unavailable" "任务没有冻结可结算的服务器参考上界计费合同")
  rejectIf (job.billing.authorizedInputTokens ≠ job.estimatedInputTokens ∨
    job.billing.authorizedMaxOutputTokens ≠ job.maxOutputTokens) .internal
  let quote ← orInternal (maximumReservationQuote job.billing.profile.profile
    job.billing.authorizedInputTokens job.billing.authorizedMaxOutputTokens)
  rejectIf (¬ job.billing.MatchesQuote quote) .internal
  return job.billing

def frozenBaseForAuthorizedUsage (billing : JobBillingSnapshot)
    (actualInputTokens actualOutputTokens : Int) : ApiResult Int := do
  rejectIf (billing.authorizedInputTokens < actualInputTokens ∨
      billing.authorizedMaxOutputTokens < actualOutputTokens)
    (.badRequest "usage_exceeds_authorized_limit" "节点上报的 Token 使用量超过任务授权上限")
  return billing.baseCostMicro

/-- The four ledger inserts of a settlement, each from a balance that is read again. -/
def appendEntries (schema : Schema) (ledger : LedgerDb) (stamps : SettlementStamps)
    (jobId consumer node : Uuid) (amounts : SettlementAmounts) (consumerBefore : Int) :
    ApiResult (LedgerDb × EntryHashes) := do
  let (paid, consumerHash) ← appendQuota schema ledger stamps.consumer consumer jobId
    "consumer_deduction" (-amounts.userDeductionMicro) consumerBefore
    (consumerBefore - amounts.userDeductionMicro) (jobKey jobId "consumer")
  let nodeBefore ← accountSpendable paid node
  let nodeAfter ← checkedAddOrInternal nodeBefore amounts.nodeQuotaMicro
  let (credited, nodeQuotaHash) ← appendQuota schema paid stamps.nodeQuota node jobId
    "node_reward" amounts.nodeQuotaMicro nodeBefore nodeAfter (jobKey jobId "node-quota")
  let worker ← fetchOne (credited.accounts.find node)
  let contributionAfter ← checkedAddOrInternal worker.contributionMicro
    amounts.contributionMicro
  let (contributed, contributionHash) ← appendContribution schema credited
    stamps.contribution node jobId amounts.contributionMicro worker.contributionMicro
    contributionAfter (jobKey jobId "contribution")
  let reserveAfter ← checkedAddOrInternal contributed.reserve.balanceMicro
    amounts.reserveMicro
  let (kept, reserveHash) ← appendReserve schema contributed stamps.reserve jobId
    amounts.reserveMicro contributed.reserve.balanceMicro reserveAfter (jobKey jobId "reserve")
  return (kept, ⟨consumerHash, nodeQuotaHash, contributionHash, reserveHash⟩)

/-- The text whose hash a receipt carries. -/
def settlementText (receiptId jobId : Uuid) (hashes : EntryHashes)
    (amounts : SettlementAmounts) (billingSnapshotHash : String) : String :=
  String.intercalate "|" ["receipt-v2", receiptId.text, jobId.text, hashes.consumer,
    hashes.nodeQuota, hashes.contribution, hashes.reserve,
    toString amounts.userDeductionMicro, toString amounts.nodeQuotaMicro,
    toString amounts.contributionMicro, toString amounts.contributionWeightPpm,
    billingSnapshotHash]

section Settle
variable (env : Services)

/-- The amounts of a settlement. A job without a decision about its creation earns
no contribution. -/
def settlementAmounts (db : Db) (rows : CompletionRows) (baseCostMicro : Int) :
    ApiResult SettlementAmounts := do
  let base ← orInternal (MicroQuota.new baseCostMicro)
  let calculated ← orInternal (Settlement.calculate base rows.model.tier
    rows.node.trustLevel.trustClass)
  let graphWeight ← env.settlementContributionWeight db rows.job.userId rows.node.userId
  let contributionWeightPpm := min ((env.precreateWeight db rows.job).getD 0) graphWeight
  let contribution ← contributionMicro calculated.nodeContributionPoints.asI64
    contributionWeightPpm
  return {
    baseCostMicro
    userDeductionMicro := calculated.userDeduction.asI64
    nodeQuotaMicro := calculated.nodeSpendableQuota.asI64
    contributionMicro := contribution
    contributionWeightPpm
    reserveMicro := calculated.reserveInflow.asI64 }

/-- The stored result is the submitted one. -/
def resultMatches (job : Job) (command : CompleteJob) : ApiResult Bool :=
  match job.confidentialityMode, job.resultCiphertext with
  | .standard, some stored => do
      return (← env.decryptFromStorage job.id .result stored) == command.resultCiphertext
  | .standard, none => .ok false
  | .regulated, stored => .ok (stored == some command.resultCiphertext)

/-- The answer to a result of a job that has already succeeded. -/
def replayResult (db : Db) (job : Job) (command : CompleteJob) (fingerprint : String) :
    ApiResult SettlementOutcome := do
  let sameResult ← resultMatches env job command
  rejectIf (job.resultIdempotencyKey ≠ some command.idempotencyKey ∨ sameResult = false ∨
      job.actualInputTokens ≠ some command.actualInputTokens ∨
      job.actualOutputTokens ≠ some command.actualOutputTokens ∨
      job.resultTelemetryFingerprint ≠ some fingerprint)
    (.conflict "idempotency_binding_mismatch"
      "结果幂等键已绑定到不同节点、密文、Token 使用量或任务遥测")
  let receipt ← fetchOne (db.receipts.find job.id)
  return {
    receiptId := receipt.id
    jobId := job.id
    baseCostMicro := receipt.baseCostMicro
    userDeductionMicro := receipt.userDeductionMicro
    nodeQuotaMicro := receipt.nodeQuotaMicro
    contributionMicro := receipt.contributionMicro
    contributionWeightPpm := receipt.contributionWeightPpm
    reserveMicro := receipt.reserveMicro
    settlementHash := receipt.settlementHash
    idempotentReplay := true }

def storedResult (job : Job) (command : CompleteJob) : ApiResult String :=
  match job.confidentialityMode with
  | .standard => env.encryptForStorage job.id .result command.resultCiphertext
  | .regulated => .ok command.resultCiphertext

/-- `INSERT INTO receipts`. -/
def Db.insertReceipt (db : Db) (receipt : Receipt) : ApiResult Db := do
  rejectIf (receipt.userDeductionMicro < 0 ∨ receipt.nodeQuotaMicro < 0 ∨
    receipt.contributionMicro < 0 ∨ receipt.reserveMicro < 0) .internal
  rejectIf (∃ other ∈ db.receipts.rows, other.id = receipt.id ∨ other.jobId = receipt.jobId ∨
    other.settlementHash = receipt.settlementHash) .internal
  return { db with receipts := db.receipts.set receipt }

/-- The attempt of a settled job; whatever its status was. -/
def Db.succeedAttempt (db : Db) (job : Job) (idempotencyKey : String) : Db :=
  match db.jobAttempts.find (job.id, job.attemptCount) with
  | none => db
  | some attempt => db.putAttempt { attempt with
      status := .succeeded
      finishedAt := some db.now
      resultIdempotencyKey := some idempotencyKey }

/-- The accounts that a settlement locks. -/
def lockAccounts (db : Db) (first second : Uuid) : ApiResult Unit := do
  let _ ← fetchOne (db.ledger.accounts.find first)
  let _ ← fetchOne (db.ledger.accounts.find second)

/-- The payment of a job: the reservation is given back and the four entries are
written. -/
def payJob (db : Db) (rows : CompletionRows) (amounts : SettlementAmounts)
    (stamps : SettlementStamps) : ApiResult (Db × EntryHashes) := do
  rejectIf (rows.job.reservedCostMicro < amounts.userDeductionMicro) .internal
  let consumerBefore ← accountSpendable db.ledger rows.job.userId
  rejectIf (consumerBefore < amounts.userDeductionMicro) .insufficientQuota
  let released ← db.releaseReservation rows.job.userId rows.job.reservedCostMicro
  let (ledger, hashes) ← appendEntries (db.schema env.digest) released.ledger stamps rows.job.id
    rows.job.userId rows.node.userId amounts consumerBefore
  return ({ released with ledger }, hashes)

/-- The part of `complete_job` that follows its checks. -/
def settleJob (db : Db) (rows : CompletionRows) (command : CompleteJob) (fingerprint : String)
    (stamps : SettlementStamps) : ApiResult (Db × SettlementOutcome) := do
  let billing ← rows.job.billingFromRow
  let baseCostMicro ← frozenBaseForAuthorizedUsage billing command.actualInputTokens
    command.actualOutputTokens
  lockAccounts db rows.job.userId rows.node.userId
  let amounts ← settlementAmounts env db rows baseCostMicro
  let (paid, hashes) ← payJob env db rows amounts stamps
  let snapshotHash ← env.billingSnapshotHash billing
  let settlementHash := env.digest (utf8 (settlementText stamps.receiptId rows.job.id hashes
    amounts snapshotHash))
  let receipted ← paid.insertReceipt {
    id := stamps.receiptId
    jobId := rows.job.id
    consumerUserId := rows.job.userId
    nodeUserId := rows.node.userId
    baseCostMicro := amounts.baseCostMicro
    userDeductionMicro := amounts.userDeductionMicro
    nodeQuotaMicro := amounts.nodeQuotaMicro
    contributionMicro := amounts.contributionMicro
    contributionWeightPpm := amounts.contributionWeightPpm
    reserveMicro := amounts.reserveMicro
    settlementHash }
  env.appendExecutionFingerprint receipted rows.job command
  let resultCiphertext ← storedResult env rows.job command
  let succeeded := receipted.putJob { rows.job with
    status := .succeeded
    resultCiphertext := some resultCiphertext
    resultIdempotencyKey := some command.idempotencyKey
    actualInputTokens := some command.actualInputTokens
    actualOutputTokens := some command.actualOutputTokens
    resultTelemetryFingerprint := some fingerprint }
  succeeded.checkAttemptKey rows.job.id rows.job.attemptCount command.idempotencyKey
  let ended := (succeeded.succeedAttempt rows.job command.idempotencyKey
    ).finalizeDrainingInstance rows.job.modelInstanceId
  env.recordSettledEdge ended rows.job.userId rows.node.userId
  return (ended, {
    receiptId := stamps.receiptId
    jobId := rows.job.id
    baseCostMicro := amounts.baseCostMicro
    userDeductionMicro := amounts.userDeductionMicro
    nodeQuotaMicro := amounts.nodeQuotaMicro
    contributionMicro := amounts.contributionMicro
    contributionWeightPpm := amounts.contributionWeightPpm
    reserveMicro := amounts.reserveMicro
    settlementHash
    idempotentReplay := false })

/-- The lease of the job belongs to the submitting node, its owner and its device. -/
def checkWorker (rows : CompletionRows) (command : CompleteJob) : ApiResult Unit := do
  rejectIf (rows.job.leasedToNodeId ≠ some command.nodeId) leaseOfOtherNode
  rejectIf (rows.node.userId ≠ command.workerUserId ∨
      rows.node.deviceKeyId ≠ some command.claimDeviceKeyId ∨
      rows.attempt.map JobAttempt.claimDeviceKeyId ≠ some command.claimDeviceKeyId ∨
      rows.attempt.map JobAttempt.claimDeviceBindingVersion ≠ some deviceBindingVersion)
    (.forbidden "任务租约不属于当前设备")

/-- A result of a regulated job is bound to its report. -/
def checkRegulatedResult (db : Db) (job : Job) (command : CompleteJob) : ApiResult Unit :=
  if job.confidentialityMode = .regulated then env.validateRegulatedResultBinding db job command
  else .ok ()

/-- The part of `complete_job` for a leased job. A regulated job whose binding is
lost ends here, before the expiry of the lease is looked at. -/
def completeLeasedJob (db : Db) (rows : CompletionRows) (command : CompleteJob)
    (fingerprint : String) (stamps : SettlementStamps) :
    ApiResult (Db × ApiResult SettlementOutcome) :=
  if rows.job.confidentialityMode = .regulated ∧
      ¬ regulatedLeaseBindingValid db rows.job command.nodeId then do
    let failed ← failRegulatedLeaseAttestation db command.jobId
      "Regulated 租约的硬件报告、固定节点或模型绑定已失效"
    return (failed, .error (.attestationFailed
      "Regulated 租约的硬件报告、固定节点或模型绑定已失效；任务已终止且未计费"))
  else do
    checkRegulatedResult env db rows.job command
    rejectIf (¬ rows.job.LeaseValid db.now) leaseExpired
    let (settled, outcome) ← settleJob env db rows command fingerprint stamps
    return (settled, .ok outcome)

def completeJob (db : Db) (command : CompleteJob) (stamps : SettlementStamps) :
    ApiResult (Db × ApiResult SettlementOutcome) := do
  rejectIf (command.actualInputTokens < 0 ∨ command.actualOutputTokens < 0 ∨
      (command.actualInputTokens = 0 ∧ command.actualOutputTokens = 0))
    (.badRequest "invalid_usage" "Token 使用量不能为负数或全部为零")
  match completionRows db command.jobId with
  | none => .error (.notFound "任务")
  | some rows => do
      checkWorker rows command
      let fingerprint ← env.telemetryFingerprint db rows.job command
      if rows.job.status = .succeeded then
        return (db, .ok (← replayResult env db rows.job command fingerprint))
      else
        rejectIf (rows.job.status ≠ .leased)
          (.conflict "job_not_leased" "任务当前不处于可提交结果的租约状态")
        completeLeasedJob env db rows command fingerprint stamps

/-- A result as the submitting device hands it in. -/
def JobResultRequest.command (request : JobResultRequest) (principal : Principal)
    (jobId : Uuid) : CompleteJob where
  jobId
  nodeId := request.nodeId
  workerUserId := principal.userId
  claimDeviceKeyId := principal.deviceKeyId
  idempotencyKey := request.idempotencyKey
  resultCiphertext := request.resultCiphertext
  actualInputTokens := request.actualInputTokens
  actualOutputTokens := request.actualOutputTokens
  executionTelemetry := request.executionTelemetry

/-- The submission of a result, for jobs and for hidden work. -/
def jobResult (db : Db) (principal : Principal) (jobId : Uuid) (request : JobResultRequest)
    (nowUtc : Int) (stamps : SettlementStamps) : ApiResult (Db × ApiResult Bool) := do
  verifyNodeOwner db request.nodeId principal
  match ← workItemKind db jobId with
  | .hidden =>
      submitUnlessExpired env db principal jobId request.nodeId nowUtc fun swept =>
        submitHiddenJobResult env swept principal jobId request nowUtc
  | _ => do
      env.validateJobResult db jobId request
      let (settled, outcome) ← completeJob env db (request.command principal jobId) stamps
      return (settled, outcome.map SettlementOutcome.idempotentReplay)

end Settle

end MindOne.Coordinator

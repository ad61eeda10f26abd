import MindOne.Coordinator.Ledgers

/-!
# The tables of the coordinator

Jobs with their attempts and receipts, the accounts that pay for them, and the
workers that run them. A worker row can change at any time for reasons outside
the job tables; jobs, attempts and receipts change only through the operations
of the coordinator. Instants are microseconds.
-/

namespace MindOne.Coordinator

open CheckedArithmetic Accounting Database KeyedTable

inductive JobStatus where
  | queued | leased | retry | succeeded | failed | cancelled
  deriving DecidableEq, Repr

inductive AttemptStatus where
  | leased | succeeded | failed | expired
  deriving DecidableEq, Repr

inductive ConfidentialityMode where
  | standard | regulated
  deriving DecidableEq, Repr

inductive SpeedClass where
  | fast | standard | slow
  deriving DecidableEq, Repr

/-- The status of a job that holds its reservation. -/
def JobStatus.Live (status : JobStatus) : Prop :=
  status = .queued ∨ status = .retry ∨ status = .leased

instance (status : JobStatus) : Decidable status.Live := inferInstanceAs (Decidable (_ ∨ _))

/-- A row of `billing_profiles` as it is frozen into a job. -/
structure BillingProfileSnapshot where
  contractVersion : String
  profileId : Uuid
  profileVersion : Int
  modelId : Uuid
  profileFingerprint : String
  modelWeightsHash : String
  referenceHardwareClass : String
  evidenceHash : String
  validFrom : Int
  validUntil : Int
  profile : ServerReferenceBillingProfile

/-- The billing columns of a job. -/
structure JobBillingSnapshot where
  profile : BillingProfileSnapshot
  authorizedInputTokens : Int
  authorizedMaxOutputTokens : Int
  billableTokens : Int
  referenceGpuTimeUs : Int
  referenceVramMibMicroseconds : Int
  tokenCostMicro : Int
  gpuCostMicro : Int
  vramCostMicro : Int
  baseCostMicro : Int

structure Job where
  id : Uuid
  userId : Uuid
  modelId : Uuid
  modelInstanceId : Option Uuid
  idempotencyKey : String
  status : JobStatus
  encryptedPayload : String
  tags : List String
  estimatedInputTokens : Int
  maxOutputTokens : Int
  reservedCostMicro : Int
  priority : Int
  leasedToNodeId : Option Uuid
  leaseExpiresAt : Option Int
  attemptCount : Int
  maxAttempts : Int
  availableAt : Int
  createdAt : Int
  confidentialityMode : ConfidentialityMode
  regulatedRouteId : Option Uuid
  regulatedNodeId : Option Uuid
  attestationReportId : Option Uuid
  standardRequestFingerprint : Option String
  resultCiphertext : Option String
  resultIdempotencyKey : Option String
  resultTelemetryFingerprint : Option String
  actualInputTokens : Option Int
  actualOutputTokens : Option Int
  speedClass : SpeedClass
  billing : JobBillingSnapshot

def deviceBindingVersion : Int := 1

/-- An attempt always carries a complete device binding: a constraint refuses
every other row. -/
structure JobAttempt where
  jobId : Uuid
  nodeId : Uuid
  attemptNumber : Int
  status : AttemptStatus
  leaseStartedAt : Int
  leaseExpiresAt : Int
  finishedAt : Option Int
  errorClass : Option String
  errorMessage : Option String
  resultIdempotencyKey : Option String
  retryableRequested : Option Bool
  claimDeviceBindingVersion : Int
  claimDeviceKeyId : Uuid
  claimDeviceBinding : claimDeviceBindingVersion = deviceBindingVersion

def JobAttempt.key (attempt : JobAttempt) : Uuid × Int := (attempt.jobId, attempt.attemptNumber)

structure Receipt where
  id : Uuid
  jobId : Uuid
  consumerUserId : Uuid
  nodeUserId : Uuid
  baseCostMicro : Int
  userDeductionMicro : Int
  nodeQuotaMicro : Int
  contributionMicro : Int
  contributionWeightPpm : Int
  reserveMicro : Int
  settlementHash : String

inductive NodeStatus where
  | online | paused | draining | offline
  deriving DecidableEq, Repr

inductive TrustLevel where
  | enhanced | standard | standardLimited | unverified | experimental
  deriving DecidableEq, Repr

inductive InstanceStatus where
  | published | draining | unpublished
  deriving DecidableEq, Repr

inductive ReportStatus where
  | pending | verified | rejected | expired
  deriving DecidableEq, Repr

inductive KeyOrigin where
  | controlSoftware | teeRuntime
  deriving DecidableEq, Repr

inductive RouteStatus where
  | prepared | consumed | expired
  deriving DecidableEq, Repr

inductive ChallengeStatus where
  | leased | succeeded | failed | expired
  deriving DecidableEq, Repr

structure Node where
  id : Uuid
  userId : Uuid
  deviceKeyId : Option Uuid
  status : NodeStatus
  trustLevel : TrustLevel
  lastSeenAt : Option Int
  attestationReportId : Option Uuid
  trustExpiresAt : Option Int

structure NodePolicyRow where
  nodeId : Uuid
  rejectTags : List String
  maxConcurrent : Nat
  gpuTempLimitC : Option Nat
  vramReserveMib : Nat

/-- The newest metrics of a node. -/
structure NodeMetrics where
  nodeId : Uuid
  currentConcurrent : Nat
  gpuTempC : Option Int
  vramUsedMib : Option Int
  vramTotalMib : Option Int
  coordinatorRttMs : Option Int

structure Model where
  id : Uuid
  weightsHash : String
  tier : PerformanceTier
  enabled : Bool

structure ModelInstance where
  id : Uuid
  modelId : Uuid
  nodeId : Uuid
  status : InstanceStatus

structure AttestationReport where
  id : Uuid
  nodeId : Uuid
  modelInstanceId : Option Uuid
  modelHash : Option String
  status : ReportStatus
  keyOrigin : KeyOrigin
  expiresAt : Int
  collateralCurrent : Bool
  collateralExpiresAt : Option Int
  signatureVerified : Bool
  certificateChainVerified : Bool
  tcbCurrent : Bool
  ephemeralPublicKey : Option String

/-- A hidden evaluation challenge, which a worker sees as a job. -/
structure EvaluationChallenge where
  id : Uuid
  modelId : Uuid
  modelInstanceId : Uuid
  nodeId : Uuid
  status : ChallengeStatus
  issuedAt : Int
  leaseExpiresAt : Int
  privateCatalogValidUntil : Option Int
  claimedUserId : Option Uuid
  claimedDeviceKeyId : Option Uuid
  claimDeviceBindingVersion : Option Int
  workerSubmissionKind : Option String
  workerIdempotencyKey : Option String
  workerRequestHash : Option String

structure RegulatedRoute where
  id : Uuid
  userId : Uuid
  modelId : Uuid
  modelInstanceId : Uuid
  nodeId : Uuid
  attestationReportId : Uuid
  tags : List String
  estimatedInputTokens : Int
  maxOutputTokens : Int
  priority : Int
  status : RouteStatus
  expiresAt : Int
  jobId : Option Uuid
  createRequestFingerprint : Option String
  billing : JobBillingSnapshot

/-- Everything the workers and the operators of models report. -/
structure Workers where
  nodes : Table Node.id
  nodePolicies : Table NodePolicyRow.nodeId
  nodeMetrics : Table NodeMetrics.nodeId
  models : Table Model.id
  modelInstances : Table ModelInstance.id
  attestationReports : Table AttestationReport.id
  challenges : Table EvaluationChallenge.id
  routes : Table RegulatedRoute.id
  billingProfiles : Table BillingProfileSnapshot.profileId
  quarantined : Uuid → Bool

structure OperatorQuotaGrant where
  id : Uuid
  userId : Uuid
  operatorId : String
  reason : String
  amountMicro : Int
  idempotencyKey : String
  requestFingerprint : String
  quotaLedgerId : Uuid
  quotaLedgerEntryHash : String

structure OperatorReserveRelease where
  id : Uuid
  reserveLedgerId : Uuid
  purpose : ReservePurpose
  operatorId : String
  reason : String
  amountMicro : Int
  referenceId : String
  idempotencyKey : String
  requestFingerprint : String
  reserveLedgerEntryHash : String

/-- The database, at the instant that the running transaction calls `now()`. -/
structure Db where
  now : Int
  users : List Uuid
  ledger : LedgerDb
  jobs : Table Job.id
  jobAttempts : Table JobAttempt.key
  receipts : Table Receipt.jobId
  workers : Workers
  operatorQuotaGrants : Table OperatorQuotaGrant.idempotencyKey
  operatorReserveReleases : Table OperatorReserveRelease.reserveLedgerId

def Workers.empty : Workers where
  nodes := .empty
  nodePolicies := .empty
  nodeMetrics := .empty
  models := .empty
  modelInstances := .empty
  attestationReports := .empty
  challenges := .empty
  routes := .empty
  billingProfiles := .empty
  quarantined := fun _ => false

namespace Db

/-- The migrated database before its first transaction. -/
def initial : Db where
  now := 0
  users := []
  ledger := .initial
  jobs := .empty
  jobAttempts := .empty
  receipts := .empty
  workers := .empty
  operatorQuotaGrants := .empty
  operatorReserveReleases := .empty

/-- What the ledger tables may refer to. -/
def schema (db : Db) (digest : List UInt8 → String) : Schema where
  digest
  references := {
    userExists := fun userId => decide (userId ∈ db.users)
    jobExists := fun jobId => (db.jobs.find jobId).isSome }

def putJob (db : Db) (job : Job) : Db := { db with jobs := db.jobs.set job }

def putAttempt (db : Db) (attempt : JobAttempt) : Db :=
  { db with jobAttempts := db.jobAttempts.set attempt }

/-- `UPDATE quota_accounts`, with its guard and its constraints. -/
def updateAccount (db : Db) (old new : QuotaAccount) : ApiResult Db := do
  let change ← orInternal (updateQuotaAccountRow 1 old new)
  return { db with ledger := db.ledger.apply change }

/-- `reserved_micro = reserved_micro + $2` on a locked account. -/
def takeReservation (db : Db) (account : QuotaAccount) (amount : Int) :
    ApiResult Db := do
  let reservedMicro ← orInternal (toBigint (account.reservedMicro + amount))
  db.updateAccount account { account with reservedMicro }

/-- `reserved_micro = reserved_micro - $2 … AND reserved_micro >= $2`, which has to
affect one row. -/
def releaseReservation (db : Db) (userId : Uuid) (amount : Int) : ApiResult Db := do
  let account ← fetchOne (db.ledger.accounts.find userId)
  rejectIf (account.reservedMicro < amount) .internal
  db.updateAccount account { account with reservedMicro := account.reservedMicro - amount }

/-- An update of one attempt that is still leased; no other attempt is touched. -/
def updateLeasedAttempt (db : Db) (jobId : Uuid) (attemptNumber : Int)
    (f : JobAttempt → JobAttempt) : Db :=
  match db.jobAttempts.find (jobId, attemptNumber) with
  | some attempt => if attempt.status = .leased then db.putAttempt (f attempt) else db
  | none => db

/-- `UNIQUE (job_id, result_idempotency_key)` for a key about to be written. -/
def checkAttemptKey (db : Db) (jobId : Uuid) (attemptNumber : Int) (key : String) :
    ApiResult Unit :=
  rejectIf (∃ attempt ∈ db.jobAttempts.rows, attempt.jobId = jobId ∧
    attempt.attemptNumber ≠ attemptNumber ∧ attempt.resultIdempotencyKey = some key) .internal

/-- Some job or challenge is leased on the instance. -/
def instanceBusy (db : Db) (modelInstanceId : Uuid) : Prop :=
  (∃ job ∈ db.jobs.rows, job.modelInstanceId = some modelInstanceId ∧ job.status = .leased) ∨
    ∃ challenge ∈ db.workers.challenges.rows,
      challenge.modelInstanceId = modelInstanceId ∧ challenge.status = .leased

instance (db : Db) (modelInstanceId : Uuid) : Decidable (db.instanceBusy modelInstanceId) :=
  inferInstanceAs (Decidable (_ ∨ _))

/-- An instance leaves `draining` once nothing is leased on it. -/
def drained (db : Db) (mi : ModelInstance) : ModelInstance :=
  if mi.status = .draining ∧ ¬ db.instanceBusy mi.id then { mi with status := .unpublished }
  else mi

theorem drained_id (db : Db) (mi : ModelInstance) : (db.drained mi).id = mi.id := by
  unfold drained
  split <;> rfl

/-- Unpublish the drained ones among the chosen instances. -/
def unpublishDrained (db : Db) (chosen : Uuid → Bool) : Db :=
  { db with workers := { db.workers with
      modelInstances := db.workers.modelInstances.mapRows
        (fun mi => if chosen mi.id = true then db.drained mi else mi)
        fun mi => by
          split
          · exact db.drained_id mi
          · rfl } }

def finalizeDrainingInstance (db : Db) : Option Uuid → Db
  | none => db
  | some modelInstanceId => db.unpublishDrained fun id => id = modelInstanceId

end Db

end MindOne.Coordinator

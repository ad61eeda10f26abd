import MindOne.Coordinator.Occupancy
import MindOne.Coordinator.Operations
import MindOne.Lib.ReadCommitted

/-!
# The transactions that take slots

`claim_job`, `renew_job`, `prepare_regulated_job` and `create_regulated_job` as
statements that run one at a time under READ COMMITTED. Only the locks on the row
of a node and its policy are modelled, so that other rows may change between any
two statements, and of the writes only those to rows that may take a slot.
-/

namespace MindOne.Coordinator

open CheckedArithmetic Accounting Database KeyedTable ReadCommitted

/-- `now()` of a transaction is the instant at which it began. -/
def Db.at (db : Db) (began : Int) : Db := { db with now := began }

def minReportRemaining : Int := 30000000

/-- What a regulated node must satisfy, apart from a free slot. -/
def LockedNode.AcceptsRoute (locked : LockedNode) (metrics : Option NodeMetrics)
    (tags : List String) (expectedReportId : Option Uuid) (nowUtc : Int) : Prop :=
  locked.node.status = .online ∧ locked.node.trustLevel = .enhanced ∧
    (∃ seen ∈ locked.node.lastSeenAt, nowUtc - ninetySeconds < seen) ∧
    (∃ expiry ∈ locked.node.trustExpiresAt, nowUtc + minReportRemaining < expiry) ∧
    (∀ expected ∈ expectedReportId, locked.node.attestationReportId = some expected) ∧
    (∀ tag ∈ tags, ∀ rejected ∈ locked.policy.rejectTags, rejected.toLower ≠ tag.toLower) ∧
    (∀ limit ∈ locked.policy.gpuTempLimitC, ∃ temperature ∈ metrics.bind NodeMetrics.gpuTempC,
      temperature < (limit : Int)) ∧
    (locked.policy.vramReserveMib = 0 ∨ ∃ used ∈ metrics.bind NodeMetrics.vramUsedMib,
      ∃ total ∈ metrics.bind NodeMetrics.vramTotalMib,
        (locked.policy.vramReserveMib : Int) ≤ saturatingSubI64 total used)

instance (locked : LockedNode) (metrics : Option NodeMetrics) (tags : List String)
    (expectedReportId : Option Uuid) (nowUtc : Int) :
    Decidable (locked.AcceptsRoute metrics tags expectedReportId nowUtc) :=
  inferInstanceAs (Decidable (_ ∧ _ ∧
    (∃ seen ∈ locked.node.lastSeenAt, nowUtc - ninetySeconds < seen) ∧
    (∃ expiry ∈ locked.node.trustExpiresAt, nowUtc + minReportRemaining < expiry) ∧
    (∀ expected ∈ expectedReportId, locked.node.attestationReportId = some expected) ∧
    (∀ tag ∈ tags, ∀ rejected ∈ locked.policy.rejectTags, rejected.toLower ≠ tag.toLower) ∧
    (∀ limit ∈ locked.policy.gpuTempLimitC, ∃ temperature ∈ metrics.bind NodeMetrics.gpuTempC,
      temperature < (limit : Int)) ∧
    (locked.policy.vramReserveMib = 0 ∨ ∃ used ∈ metrics.bind NodeMetrics.vramUsedMib,
      ∃ total ∈ metrics.bind NodeMetrics.vramTotalMib,
        (locked.policy.vramReserveMib : Int) ≤ saturatingSubI64 total used)))

/-- One statement takes the locks and counts: the locked rows are `current`, but
everything that is counted is as old as the snapshot of the statement. -/
def checkReservedCapacityAndPolicy (counted current : Db) (nodeId : Uuid) (tags : List String)
    (excludedRouteId expectedReportId : Option Uuid) (nowUtc : Int) : ApiResult Bool := do
  let locked ← lockNode current nodeId
  return decide (locked.AcceptsRoute (counted.workers.nodeMetrics.find nodeId) tags
      expectedReportId nowUtc ∧
    counted.reservedCount nodeId excludedRouteId < locked.policy.maxConcurrent)

/-- How far a transaction has come, with the rows it has read and locked. -/
inductive Stage where
  | opened
  | claimLocked (locked : LockedNode) (modelInstanceId : Uuid)
  | claimChecked (locked : LockedNode) (modelInstanceId : Uuid)
  | claimOffered (locked : LockedNode) (modelInstanceId : Uuid) (job : Job)
  | claimAdmitted (locked : LockedNode) (modelInstanceId : Uuid) (job : Job)
  | renewLocked (locked : LockedNode) (jobId : Uuid)
  | renewLeased (locked : LockedNode) (job : Job)
  | renewChecked (locked : LockedNode) (jobId : Uuid)
  | renewExtended (locked : LockedNode) (jobId : Uuid)
  | routeFree (nodeId : Uuid)
  | routeLocked (route : RegulatedRoute)
  | routeChecked (route : RegulatedRoute)
  | routeUsed (route : RegulatedRoute) (jobId : Uuid)
  | finished (nodeId : Uuid)

/-- The node whose slots the transaction acts on, once it has locked it. -/
def Stage.node : Stage → Option Uuid
  | .opened | .routeLocked _ => none
  | .claimLocked locked _ | .claimChecked locked _ | .claimOffered locked _ _
  | .claimAdmitted locked _ _ | .renewLocked locked _ | .renewLeased locked _
  | .renewChecked locked _ | .renewExtended locked _ => some locked.node.id
  | .routeChecked route | .routeUsed route _ => some route.nodeId
  | .routeFree nodeId | .finished nodeId => some nodeId

/-- Two stages must not commit: a hidden lease that has been extended before its
check, and a job whose route has not been used up yet. -/
def Stage.MayCommit : Stage → Prop
  | .renewExtended _ _ => False
  | .routeUsed _ _ => False
  | _ => True

instance (stage : Stage) : Decidable stage.MayCommit :=
  match stage with
  | .renewExtended _ _ | .routeUsed _ _ => inferInstanceAs (Decidable False)
  | .opened | .claimLocked _ _ | .claimChecked _ _ | .claimOffered _ _ _ | .claimAdmitted _ _ _
  | .renewLocked _ _ | .renewLeased _ _ | .renewChecked _ _ | .routeFree _ | .routeLocked _
  | .routeChecked _ | .finished _ => inferInstanceAs (Decidable True)

inductive Statement where
  | lockForClaim (principal : Principal) (request : ClaimJobRequest)
  | reapExhausted (lockedRows : Uuid → Bool)
  | reapInvalid (lockedRows : Uuid → Bool)
  | enforceClaim
  | expireStale (lockedRows : Uuid → Bool)
  | leaseHidden (principal : Principal) (draw : ChallengeDraw)
  | selectCandidate (lockedRows : Uuid → Bool)
  | enforceCandidate
  | leaseCandidate (principal : Principal) (nowUtc : Int)
  | lockForRenewal (principal : Principal) (jobId nodeId : Uuid)
  | selectLeased (principal : Principal)
  | failAttestation
  | enforceRenewal
  | extendLease (nowUtc : Int)
  | extendHidden (principal : Principal) (nowUtc : Int)
  | enforceHidden
  | checkNode (nodeId : Uuid) (tags : List String) (nowUtc : Int)
  | insertRoute (route : RegulatedRoute)
  | selectRoute (principal : Principal) (routeId : Uuid) (nowUtc : Int)
  | checkRoute (nowUtc : Int)
  | insertJob (job : Job)
  | useRoute (createRequestFingerprint : String)

/-- The nodes that a statement locks, each together with its policy. -/
def Statement.locks : Statement → Stage → List Uuid
  | .lockForClaim _ request, _ => [request.nodeId]
  | .lockForRenewal _ _ nodeId, _ => [nodeId]
  | .checkNode nodeId _ _, _ => [nodeId]
  | .checkRoute _, .routeLocked route => [route.nodeId]
  | _, _ => []

/-- A renewal begins with its own lock. -/
def Statement.startsRenewal : Statement → Bool
  | .lockForRenewal _ _ _ => true
  | _ => false

/-- The jobs that an operation has ended. -/
def Db.endedJobs (after before : Db) : List SlotRow :=
  (after.jobs.rows.filter fun job => job.status = .failed ∧
    ∃ old ∈ before.jobs.find job.id, old.status ≠ .failed).map .job

/-- The challenges that an operation has ended. -/
def Db.endedChallenges (after before : Db) : List SlotRow :=
  (after.workers.challenges.rows.filter fun challenge => challenge.status = .failed ∧
    ∃ old ∈ before.workers.challenges.find challenge.id, old.status ≠ .failed).map .challenge

section Statements
variable (env : Services) (began : Int) (snapshot current : Db)

def lockForClaim (principal : Principal) (request : ClaimJobRequest) :
    ApiResult (Stage × List SlotRow) := do
  let locked ← lockNode current request.nodeId
  requireNodeDeviceBinding principal locked.node
  rejectIf (locked.node.status ≠ .online) (.policyRejected "节点当前未处于在线接单状态")
  return (.claimLocked locked request.modelInstanceId, [])

def lockForRenewal (principal : Principal) (jobId nodeId : Uuid) :
    ApiResult (Stage × List SlotRow) := do
  let locked ← lockNode current nodeId
  requireNodeDeviceBinding principal locked.node
  rejectIf (locked.node.status = .offline) (.policyRejected "节点策略当前暂停执行")
  return (.renewLocked locked jobId, [])

/-- A check of the policy, in a statement after the one that took the lock. -/
def enforce (locked : LockedNode) (excludedJobId : Option Uuid) (taskTags : List String)
    (next : Stage) : ApiResult (Stage × List SlotRow) := do
  enforceCurrentPolicy env (snapshot.at began) locked excludedJobId taskTags
  return (next, [])

def leaseHidden (locked : LockedNode) (modelInstanceId : Uuid) (principal : Principal)
    (draw : ChallengeDraw) : ApiResult (Stage × List SlotRow) := do
  let mi ← fetchOne (hiddenCandidate env (current.at began) locked.node.id modelInstanceId)
  let (claimed, _) ← insertChallengeClaim env (current.at began) principal mi draw
  let challenge ← fetchOne (claimed.workers.challenges.find draw.id)
  return (.finished locked.node.id, [.challenge challenge])

/-- `FOR UPDATE OF j SKIP LOCKED` looks at its row again. -/
def selectCandidate (locked : LockedNode) (modelInstanceId : Uuid) (lockedRows : Uuid → Bool) :
    ApiResult (Stage × List SlotRow) := do
  let candidate ← fetchOne
    (claimCandidate env (snapshot.at began) ⟨locked.node.id, modelInstanceId⟩ lockedRows)
  let job ← fetchOne ((current.jobs.find candidate.id).filter fun job => job.AwaitsClaim began)
  return (.claimOffered locked modelInstanceId job, [])

def leaseCandidate (locked : LockedNode) (modelInstanceId : Uuid) (job : Job)
    (principal : Principal) (nowUtc : Int) : ApiResult (Stage × List SlotRow) := do
  let (leased, _) ← leaseJob env (current.at began) principal
    ⟨locked.node.id, modelInstanceId⟩ job nowUtc
  let row ← fetchOne (leased.jobs.find job.id)
  return (.finished locked.node.id, [.job row])

def selectLeased (locked : LockedNode) (principal : Principal) (jobId : Uuid) :
    ApiResult (Stage × List SlotRow) :=
  match leasedTask (current.at began) jobId locked.node.id with
  | none => .error leaseNotRenewable
  | some (job, attempt) => do
      rejectIf (¬ attempt.BoundTo principal principal.userId) leaseNotRenewable
      return (.renewLeased locked job, [])

def failAttestation (locked : LockedNode) (job : Job) : ApiResult (Stage × List SlotRow) := do
  let failed ← failRegulatedLeaseAttestation (current.at began) job.id
    "Regulated 续租时硬件报告、固定节点或模型绑定已失效"
  return (.finished locked.node.id, failed.endedJobs current)

/-- The renewal writes only while the lease is the one it has selected. -/
def extendLease (locked : LockedNode) (jobId : Uuid) (nowUtc : Int) :
    ApiResult (Stage × List SlotRow) :=
  match (current.jobs.find jobId).filter fun job => job.LeasedBy locked.node.id began with
  | none => .error leaseNotRenewable
  | some job => .ok (.finished locked.node.id,
      [.job { job with leaseExpiresAt := some (nowUtc + env.leaseDuration) }])

def extendHidden (locked : LockedNode) (jobId : Uuid) (principal : Principal) (nowUtc : Int) :
    ApiResult (Stage × List SlotRow) := do
  match ← renewHiddenJob env (current.at began) principal jobId locked.node.id nowUtc with
  | (expired, .expired) => return (.finished locked.node.id, expired.endedChallenges current)
  | (renewed, .renewed _) => do
      let challenge ← fetchOne (renewed.workers.challenges.find jobId)
      return (.renewExtended locked jobId, [.challenge challenge])

/-- One candidate of `prepare_regulated_job`; a node that fails stays locked. -/
def checkNode (nodeId : Uuid) (tags : List String) (nowUtc : Int) :
    ApiResult (Stage × List SlotRow) := do
  let capacity ← checkReservedCapacityAndPolicy (snapshot.at began) current nodeId tags none none
    nowUtc
  return (if capacity = true then .routeFree nodeId else .opened, [])

def insertRoute (nodeId : Uuid) (route : RegulatedRoute) : ApiResult (Stage × List SlotRow) := do
  rejectIf (current.workers.routes.find route.id ≠ none ∨ route.nodeId ≠ nodeId ∨
    route.status ≠ .prepared) .internal
  return (.finished nodeId, [.route route])

def selectRoute (principal : Principal) (routeId : Uuid) (nowUtc : Int) :
    ApiResult (Stage × List SlotRow) :=
  match current.workers.routes.find routeId with
  | none => .error (.notFound "Regulated prepared route")
  | some route =>
  match routeRows current.workers route with
  | none => .error (.notFound "Regulated prepared route")
  | some rows => do
      rejectIf (route.userId ≠ principal.userId) (.forbidden "无权消费该 Regulated route")
      rejectIf (route.status ≠ .prepared)
        (.conflict "regulated_route_replay" "Regulated route 已消费或过期，拒绝重放")
      rejectIf (¬ rows.Current current.workers route nowUtc)
        (.attestationFailed "prepared route 的节点、模型或硬件报告在消费前已失效")
      return (.routeLocked route, [])

def checkRoute (route : RegulatedRoute) (nowUtc : Int) : ApiResult (Stage × List SlotRow) := do
  let capacity ← checkReservedCapacityAndPolicy (snapshot.at began) current route.nodeId
    route.tags (some route.id) (some route.attestationReportId) nowUtc
  rejectIf (capacity = false)
    (.policyRejected "prepared route 的固定节点在消费前已满载或不再满足本机策略")
  return (.routeChecked route, [])

/-- The new job is pinned to the node of its route. -/
def insertJob (route : RegulatedRoute) (job : Job) : ApiResult (Stage × List SlotRow) := do
  rejectIf (current.jobs.find job.id ≠ none ∨ job.status ≠ .queued ∨
    job.confidentialityMode ≠ .regulated ∨ job.regulatedNodeId ≠ some route.nodeId ∨
    job.regulatedRouteId ≠ some route.id) .internal
  return (.routeUsed route job.id, [.job job])

def useRoute (route : RegulatedRoute) (jobId : Uuid) (createRequestFingerprint : String) :
    ApiResult (Stage × List SlotRow) := do
  let row ← fetchOne ((current.workers.routes.find route.id).filter fun row =>
    row.status = .prepared ∧ began < row.expiresAt)
  return (.finished route.nodeId, [.route { row with
    status := .consumed
    jobId := some jobId
    createRequestFingerprint := some createRequestFingerprint }])

/-- What a statement does at the stage its transaction has reached. -/
def runStatement : Statement → Stage → ApiResult (Stage × List SlotRow)
  | .lockForClaim principal request, .opened => lockForClaim current principal request
  | .reapExhausted lockedRows, .claimLocked locked modelInstanceId => do
      let reaped ← reapExpiredTerminalLeases lockedRows (current.at began)
      return (.claimLocked locked modelInstanceId, reaped.endedJobs current)
  | .reapInvalid lockedRows, .claimLocked locked modelInstanceId => do
      let reaped ← reapInvalidRegulatedJobs lockedRows (current.at began)
      return (.claimLocked locked modelInstanceId, reaped.endedJobs current)
  | .enforceClaim, .claimLocked locked modelInstanceId =>
      enforce env began snapshot locked none [] (.claimChecked locked modelInstanceId)
  | .expireStale lockedRows, .claimChecked locked modelInstanceId => do
      let swept ← expireStaleChallenges env (current.at began) locked.node.id lockedRows
      return (.claimChecked locked modelInstanceId, swept.endedChallenges current)
  | .leaseHidden principal draw, .claimChecked locked modelInstanceId =>
      leaseHidden env began current locked modelInstanceId principal draw
  | .selectCandidate lockedRows, .claimChecked locked modelInstanceId =>
      selectCandidate env began snapshot current locked modelInstanceId lockedRows
  | .enforceCandidate, .claimOffered locked modelInstanceId job =>
      enforce env began snapshot locked none job.tags (.claimAdmitted locked modelInstanceId job)
  | .leaseCandidate principal nowUtc, .claimAdmitted locked modelInstanceId job =>
      leaseCandidate env began current locked modelInstanceId job principal nowUtc
  | .lockForRenewal principal jobId nodeId, .opened =>
      lockForRenewal current principal jobId nodeId
  | .selectLeased principal, .renewLocked locked jobId =>
      selectLeased began current locked principal jobId
  | .failAttestation, .renewLeased locked job => failAttestation began current locked job
  | .enforceRenewal, .renewLeased locked job =>
      enforce env began snapshot locked (some job.id) job.tags (.renewChecked locked job.id)
  | .extendLease nowUtc, .renewChecked locked jobId =>
      extendLease env began current locked jobId nowUtc
  | .extendHidden principal nowUtc, .renewLocked locked jobId =>
      extendHidden env began current locked jobId principal nowUtc
  | .enforceHidden, .renewExtended locked jobId =>
      enforce env began snapshot locked (some jobId) [] (.finished locked.node.id)
  | .checkNode nodeId tags nowUtc, .opened => checkNode began snapshot current nodeId tags nowUtc
  | .insertRoute route, .routeFree nodeId => insertRoute current nodeId route
  | .selectRoute principal routeId nowUtc, .opened =>
      selectRoute current principal routeId nowUtc
  | .checkRoute nowUtc, .routeLocked route => checkRoute began snapshot current route nowUtc
  | .insertJob job, .routeChecked route => insertJob current route job
  | .useRoute createRequestFingerprint, .routeUsed route jobId =>
      useRoute began current route jobId createRequestFingerprint
  | _, _ => .error .internal

end Statements

/-- A statement that fails ends its transaction, so that only a rollback is left. -/
def admission (env : Services) : Engine Int Db SlotRow Uuid Stage Statement where
  opened := .opened
  apply := Db.writeSlot
  locks := Statement.locks
  execute stmt stage began snapshot current :=
    (runStatement env began snapshot current stmt stage).toOption
  mayCommit := Stage.MayCommit

instance (env : Services) : DecidablePred (admission env).mayCommit :=
  fun stage => inferInstanceAs (Decidable stage.MayCommit)

section Effects
variable {env : Services} {began now : Int} {snapshot current : Db}

/-- A row that takes no slot of any node. -/
def SlotRow.Idle (row : SlotRow) : Prop :=
  ∀ nodeId now, commitments.takes nodeId now row = false

/-- A row that takes slots of one node only. -/
def SlotRow.Only (row : SlotRow) (nodeId : Uuid) : Prop :=
  ∀ other now, commitments.takes other now row = true → other = nodeId

/-- What a statement can do: which stage it leads to, what it has found out, and
which rows it writes. -/
inductive Effect (began : Int) (snapshot current : Db) : Stage → Stage → List SlotRow → Prop
  | entered {locked : LockedNode} {stage : Stage}
      (node : stage.node = some locked.node.id)
      (kind : (∃ mi, stage = .claimLocked locked mi) ∨ ∃ jobId, stage = .renewLocked locked jobId)
      (limit : current.limit locked.node.id = some locked.policy.maxConcurrent) :
      Effect began snapshot current .opened stage []
  | ended {stage stage' : Stage} {rows : List SlotRow}
      (kind : stage' = stage ∨ ∃ nodeId, stage.node = some nodeId ∧ stage' = .finished nodeId)
      (may : stage.MayCommit) (idle : ∀ row ∈ rows, row.Idle) :
      Effect began snapshot current stage stage' rows
  | claimChecked {locked : LockedNode} {mi : Uuid}
      (room : activeCount snapshot.jobs.rows snapshot.workers.challenges.rows locked.node.id began
        none < locked.policy.maxConcurrent) :
      Effect began snapshot current (.claimLocked locked mi) (.claimChecked locked mi) []
  | hidden {locked : LockedNode} {mi : Uuid} {challenge : EvaluationChallenge}
      (only : (SlotRow.challenge challenge).Only locked.node.id) :
      Effect began snapshot current (.claimChecked locked mi) (.finished locked.node.id)
        [.challenge challenge]
  | offered {locked : LockedNode} {mi : Uuid} {job : Job} {m : Nat}
      (limit : snapshot.limit locked.node.id = some m)
      (room : (commitments.held snapshot locked.node.id began \ {.job job.id}).card < m ∨
        (commitments.held snapshot locked.node.id began \ {.job job.id}).card = 0) :
      Effect began snapshot current (.claimChecked locked mi) (.claimOffered locked mi job) []
  | admitted {locked : LockedNode} {mi : Uuid} {job : Job}
      (room : activeCount snapshot.jobs.rows snapshot.workers.challenges.rows locked.node.id began
        none < locked.policy.maxConcurrent) :
      Effect began snapshot current (.claimOffered locked mi job) (.claimAdmitted locked mi job) []
  | leased {locked : LockedNode} {mi : Uuid} {job row : Job} (id : row.id = job.id)
      (only : (SlotRow.job row).Only locked.node.id) :
      Effect began snapshot current (.claimAdmitted locked mi job) (.finished locked.node.id)
        [.job row]
  | selected {locked : LockedNode} {jobId : Uuid} {job : Job} (found : job ∈ current.jobs.rows) :
      Effect began snapshot current (.renewLocked locked jobId) (.renewLeased locked job) []
  | renewChecked {locked : LockedNode} {job : Job}
      (room : activeCount snapshot.jobs.rows snapshot.workers.challenges.rows locked.node.id began
        (some job.id) < locked.policy.maxConcurrent) :
      Effect began snapshot current (.renewLeased locked job) (.renewChecked locked job.id) []
  | extended {locked : LockedNode} {jobId : Uuid} {row : Job} (id : row.id = jobId)
      (only : (SlotRow.job row).Only locked.node.id) :
      Effect began snapshot current (.renewChecked locked jobId) (.finished locked.node.id)
        [.job row]
  | hiddenExtended {locked : LockedNode} {jobId : Uuid} {challenge : EvaluationChallenge}
      (found : ∃ old ∈ current.workers.challenges.rows, old.id = jobId)
      (id : challenge.id = jobId) (only : (SlotRow.challenge challenge).Only locked.node.id) :
      Effect began snapshot current (.renewLocked locked jobId) (.renewExtended locked jobId)
        [.challenge challenge]
  | hiddenChecked {locked : LockedNode} {jobId : Uuid}
      (room : activeCount snapshot.jobs.rows snapshot.workers.challenges.rows locked.node.id began
        (some jobId) < locked.policy.maxConcurrent) :
      Effect began snapshot current (.renewExtended locked jobId) (.finished locked.node.id) []
  | nodeChecked {nodeId : Uuid} {m : Nat} (limit : current.limit nodeId = some m)
      (room : (snapshot.at began).reservedCount nodeId none < m) :
      Effect began snapshot current .opened (.routeFree nodeId) []
  | prepared {nodeId : Uuid} {route : RegulatedRoute} (only : (SlotRow.route route).Only nodeId) :
      Effect began snapshot current (.routeFree nodeId) (.finished nodeId) [.route route]
  | routeSelected {route : RegulatedRoute} :
      Effect began snapshot current .opened (.routeLocked route) []
  | routeChecked {route : RegulatedRoute} {m : Nat} (limit : current.limit route.nodeId = some m)
      (room : (snapshot.at began).reservedCount route.nodeId (some route.id) < m) :
      Effect began snapshot current (.routeLocked route) (.routeChecked route) []
  | inserted {route : RegulatedRoute} {job : Job} (waits : job.status = .queued)
      (only : (SlotRow.job job).Only route.nodeId) :
      Effect began snapshot current (.routeChecked route) (.routeUsed route job.id) [.job job]
  | used {route row : RegulatedRoute} {jobId : Uuid} (id : row.id = route.id)
      (idle : (SlotRow.route row).Idle) :
      Effect began snapshot current (.routeUsed route jobId) (.finished route.nodeId) [.route row]

theorem commitments_takes_job {nodeId : Uuid} {job : Job} :
    commitments.takes nodeId now (.job job) = true ↔
      job.LeasedBy nodeId now ∨ job.PinnedTo nodeId := decide_eq_true_iff

theorem commitments_takes_challenge {nodeId : Uuid} {challenge : EvaluationChallenge} :
    commitments.takes nodeId now (.challenge challenge) = true ↔
      challenge.LeasedBy nodeId now := decide_eq_true_iff

theorem commitments_takes_route {nodeId : Uuid} {route : RegulatedRoute} :
    commitments.takes nodeId now (.route route) = true ↔ route.Pending nodeId now :=
  decide_eq_true_iff

theorem endedJobs_idle {after before : Db} : ∀ row ∈ after.endedJobs before, row.Idle := by
  intro row hrow nodeId now
  obtain ⟨job, hjob, rfl⟩ := List.mem_map.mp hrow
  have hfailed : job.status = .failed := (of_decide_eq_true (List.mem_filter.mp hjob).2).1
  rw [Bool.eq_false_iff, Ne, commitments_takes_job]
  rintro (⟨-, hleased, -⟩ | ⟨-, -, hwaits⟩)
  · simp [hfailed] at hleased
  · simp [hfailed] at hwaits

theorem endedChallenges_idle {after before : Db} :
    ∀ row ∈ after.endedChallenges before, row.Idle := by
  intro row hrow nodeId now
  obtain ⟨challenge, hchallenge, rfl⟩ := List.mem_map.mp hrow
  have hfailed : challenge.status = .failed :=
    (of_decide_eq_true (List.mem_filter.mp hchallenge).2).1
  rw [Bool.eq_false_iff, Ne, commitments_takes_challenge]
  rintro ⟨-, hleased, -⟩
  simp [hfailed] at hleased

theorem leasedJob_only {job : Job} {nodeId : Uuid} (hstatus : job.status = .leased)
    (hnode : job.leasedToNodeId = some nodeId) : (SlotRow.job job).Only nodeId := by
  intro other now htakes
  rcases commitments_takes_job.mp htakes with ⟨hother, -⟩ | ⟨-, -, hwaits⟩
  · rw [hnode, Option.some.injEq] at hother
    exact hother.symm
  · simp [hstatus] at hwaits

theorem challenge_only (challenge : EvaluationChallenge) :
    (SlotRow.challenge challenge).Only challenge.nodeId :=
  fun _ _ htakes => (commitments_takes_challenge.mp htakes).1.symm

theorem lockNode_limit {nodeId : Uuid} {locked : LockedNode}
    (h : lockNode current nodeId = .ok locked) :
    locked.node.id = nodeId ∧ current.limit nodeId = some locked.policy.maxConcurrent := by
  obtain ⟨hnode, hpolicy⟩ := lockNode_eq_ok.mp h
  exact ⟨Table.key_of_find hnode, by rw [Db.limit, hpolicy]; rfl⟩

theorem enforce_ok {locked : LockedNode} {excluded : Option Uuid} {tags : List String}
    {next stage : Stage} {rows : List SlotRow}
    (h : enforce env began snapshot locked excluded tags next = .ok (stage, rows)) :
    stage = next ∧ rows = [] ∧
      activeCount snapshot.jobs.rows snapshot.workers.challenges.rows locked.node.id began
        excluded < locked.policy.maxConcurrent := by
  simp only [enforce, bind_eq_ok] at h
  obtain ⟨_, hpolicy, hnext⟩ := h
  cases hnext
  exact ⟨rfl, rfl, enforceCurrentPolicy_ok env hpolicy⟩

theorem checkReservedCapacityAndPolicy_ok {nodeId : Uuid} {tags : List String}
    {excluded expected : Option Uuid} {nowUtc : Int}
    (h : checkReservedCapacityAndPolicy (snapshot.at began) current nodeId tags excluded expected
      nowUtc = .ok true) :
    ∃ m, current.limit nodeId = some m ∧ (snapshot.at began).reservedCount nodeId excluded < m := by
  simp only [checkReservedCapacityAndPolicy, bind_eq_ok] at h
  obtain ⟨locked, hlocked, hcapacity⟩ := h
  cases hcapacity' : decide (locked.AcceptsRoute
      ((snapshot.at began).workers.nodeMetrics.find nodeId) tags expected nowUtc ∧
        (snapshot.at began).reservedCount nodeId excluded < locked.policy.maxConcurrent) with
  | false =>
      rw [hcapacity'] at hcapacity
      cases hcapacity
  | true => exact ⟨_, (lockNode_limit hlocked).2, (of_decide_eq_true hcapacity').2⟩

section Single
variable {locked : LockedNode} {mi jobId : Uuid} {principal : Principal} {stage : Stage}
  {rows : List SlotRow} {nowUtc : Int}

theorem lockForClaim_effect {request : ClaimJobRequest}
    (h : lockForClaim current principal request = .ok (stage, rows)) :
    Effect began snapshot current .opened stage rows ∧ stage.node = some request.nodeId := by
  simp only [lockForClaim, bind_eq_ok] at h
  obtain ⟨locked, hlocked, _, -, _, -, hstage⟩ := h
  cases hstage
  obtain ⟨hid, hlimit⟩ := lockNode_limit hlocked
  exact ⟨.entered rfl (.inl ⟨_, rfl⟩) (by rw [hid, hlimit]), congrArg some hid⟩

theorem lockForRenewal_effect {nodeId : Uuid}
    (h : lockForRenewal current principal jobId nodeId = .ok (stage, rows)) :
    Effect began snapshot current .opened stage rows ∧ stage.node = some nodeId := by
  simp only [lockForRenewal, bind_eq_ok] at h
  obtain ⟨locked, hlocked, _, -, _, -, hstage⟩ := h
  cases hstage
  obtain ⟨hid, hlimit⟩ := lockNode_limit hlocked
  exact ⟨.entered rfl (.inr ⟨_, rfl⟩) (by rw [hid, hlimit]), congrArg some hid⟩

theorem leaseHidden_effect {draw : ChallengeDraw}
    (h : leaseHidden env began current locked mi principal draw = .ok (stage, rows)) :
    Effect began snapshot current (.claimChecked locked mi) stage rows := by
  simp only [leaseHidden, insertChallengeClaim, bind_eq_ok, fetchOne_eq_ok] at h
  obtain ⟨found, hfound, claimed, ⟨_, -, hclaimed⟩, challenge, hchallenge, hstage⟩ := h
  cases hclaimed
  cases hstage
  have hrow := Table.find_set_self.symm.trans hchallenge
  cases hrow
  have hnode : found.nodeId = locked.node.id := by
    rw [hiddenCandidate, Option.filter_eq_some_iff] at hfound
    exact (of_decide_eq_true hfound.2).1
  exact .hidden (hnode ▸ challenge_only _)

theorem selectCandidate_effect {lockedRows : Uuid → Bool}
    (h : selectCandidate env began snapshot current locked mi lockedRows = .ok (stage, rows)) :
    Effect began snapshot current (.claimChecked locked mi) stage rows := by
  simp only [selectCandidate, bind_eq_ok, fetchOne_eq_ok, Option.filter_eq_some_iff] at h
  obtain ⟨candidate, hcandidate, job, ⟨hjob, -⟩, hstage⟩ := h
  cases hstage
  obtain ⟨-, ⟨-, ⟨routed, hrouted, hnode, -⟩, -⟩, -⟩ := claimCandidate_spec hcandidate
  obtain ⟨-, -, -, -, -, node, hfound, policy, hpolicy, hfits⟩ := routedInstance_spec hrouted
  have hid : node.id = locked.node.id := (Table.key_of_find hfound).trans hnode
  have hlimit : snapshot.limit locked.node.id = some policy.maxConcurrent := by
    have hrequest : routed.nodeId = locked.node.id := hnode
    have hfind : snapshot.workers.nodePolicies.find locked.node.id = some policy := by
      rw [← hrequest]
      exact hpolicy
    rw [Db.limit, hfind]
    rfl
  have hload : (snapshot.at began).loadCount candidate node.id =
      (commitments.held snapshot locked.node.id began \ {.job job.id}).card := by
    rw [loadCount_eq_card, hid, Table.key_of_find hjob]
    rfl
  have hspeed := hfits.2.2.2.2.1
  refine .offered hlimit ?_
  rw [← hload]
  cases hclass : candidate.speedClass with
  | fast =>
      rw [hclass] at hspeed
      simp only [SpeedClass.Fits] at hspeed
      omega
  | standard =>
      rw [hclass] at hspeed
      simp only [SpeedClass.Fits] at hspeed
      omega
  | slow =>
      rw [hclass] at hspeed
      simp only [SpeedClass.Fits] at hspeed
      omega

theorem leaseCandidate_effect {job : Job}
    (h : leaseCandidate env began current locked mi job principal nowUtc = .ok (stage, rows)) :
    Effect began snapshot current (.claimAdmitted locked mi job) stage rows := by
  simp only [leaseCandidate, leaseJob, bind_eq_ok, fetchOne_eq_ok] at h
  obtain ⟨leased, ⟨inserted, hinsert, payload, -, hleased⟩, row, hrow, hstage⟩ := h
  cases hleased
  cases hstage
  obtain ⟨attempt, -, -, rfl⟩ := insertJobAttempt_eq_ok hinsert
  have hfound := Table.find_set_self.symm.trans hrow
  cases hfound
  exact .leased rfl (leasedJob_only rfl rfl)

theorem selectLeased_effect
    (h : selectLeased began current locked principal jobId = .ok (stage, rows)) :
    Effect began snapshot current (.renewLocked locked jobId) stage rows := by
  unfold selectLeased at h
  cases htask : leasedTask (current.at began) jobId locked.node.id with
  | none =>
      rw [htask] at h
      cases h
  | some task =>
      obtain ⟨job, attempt⟩ := task
      rw [htask] at h
      simp only [bind_eq_ok] at h
      obtain ⟨_, -, hstage⟩ := h
      cases hstage
      simp only [leasedTask, Option.bind_eq_bind, Option.bind_eq_some_iff,
        Option.filter_eq_some_iff] at htask
      obtain ⟨found, ⟨hfound, -⟩, _, -, heq⟩ := htask
      cases heq
      exact .selected (Table.mem_of_find hfound)

theorem extendLease_effect
    (h : extendLease env began current locked jobId nowUtc = .ok (stage, rows)) :
    Effect began snapshot current (.renewChecked locked jobId) stage rows := by
  unfold extendLease at h
  cases hjob : (current.jobs.find jobId).filter fun job =>
      job.LeasedBy locked.node.id began with
  | none =>
      rw [hjob] at h
      cases h
  | some job =>
      rw [hjob] at h
      cases h
      rw [Option.filter_eq_some_iff] at hjob
      obtain ⟨hfound, hleased⟩ := hjob
      obtain ⟨hnode, hstatus, -⟩ := of_decide_eq_true hleased
      have hid : job.id = jobId := Table.key_of_find hfound
      exact .extended hid (leasedJob_only hstatus hnode)

theorem extendHidden_effect
    (h : extendHidden env began current locked jobId principal nowUtc = .ok (stage, rows)) :
    Effect began snapshot current (.renewLocked locked jobId) stage rows := by
  simp only [extendHidden, bind_eq_ok] at h
  obtain ⟨⟨after, renewal⟩, hrenewal, hstage⟩ := h
  cases renewal with
  | expired =>
      cases hstage
      exact .ended (.inr ⟨_, rfl, rfl⟩) trivial endedChallenges_idle
  | renewed expiry =>
      simp only [bind_eq_ok, fetchOne_eq_ok] at hstage
      obtain ⟨challenge, hchallenge, hstage⟩ := hstage
      cases hstage
      unfold renewHiddenJob at hrenewal
      cases hrow : hiddenJobRow (current.at began) jobId with
      | none =>
          rw [hrow] at hrenewal
          cases hrenewal
      | some row =>
          rw [hrow] at hrenewal
          simp only [bind_eq_ok, rejectIf_eq_ok, exists_const, not_not] at hrenewal
          obtain ⟨_, -, hown, -, hafter⟩ := hrenewal
          split at hafter
          · simp only [bind_eq_ok] at hafter
            obtain ⟨_, -, hcase⟩ := hafter
            cases hcase
          · cases hafter
            have hold : current.workers.challenges.find jobId = some row.challenge := by
              simp only [hiddenJobRow, Option.bind_eq_bind, Option.bind_eq_some_iff] at hrow
              obtain ⟨found, hfound, _, -, _, -, heq⟩ := hrow
              cases heq
              exact hfound
            have hid : row.challenge.id = jobId := Table.key_of_find hold
            have hmem := Table.mem_of_find hold
            subst hid
            have hwritten := Table.find_set_self.symm.trans hchallenge
            cases hwritten
            exact .hiddenExtended ⟨_, hmem, rfl⟩ rfl (hown.2.1 ▸ challenge_only _)

theorem checkNode_effect {nodeId : Uuid} {tags : List String}
    (h : checkNode began snapshot current nodeId tags nowUtc = .ok (stage, rows)) :
    Effect began snapshot current .opened stage rows ∧
      ∀ other, stage.node = some other → other = nodeId := by
  simp only [checkNode, bind_eq_ok] at h
  obtain ⟨capacity, hcapacity, hstage⟩ := h
  cases capacity with
  | false =>
      cases hstage
      exact ⟨.ended (.inl rfl) trivial (by simp), fun other hother => by cases hother⟩
  | true =>
      cases hstage
      obtain ⟨m, hlimit, hroom⟩ := checkReservedCapacityAndPolicy_ok hcapacity
      exact ⟨.nodeChecked hlimit hroom, fun other hother => by cases hother; rfl⟩

theorem insertRoute_effect {nodeId : Uuid} {route : RegulatedRoute}
    (h : insertRoute current nodeId route = .ok (stage, rows)) :
    Effect began snapshot current (.routeFree nodeId) stage rows := by
  simp only [insertRoute, bind_eq_ok, rejectIf_eq_ok, exists_const, not_or, not_not] at h
  obtain ⟨⟨-, hnode, -⟩, hstage⟩ := h
  cases hstage
  exact .prepared fun other now htakes => by
    rw [← (commitments_takes_route.mp htakes).1, hnode]

theorem selectRoute_effect {routeId : Uuid}
    (h : selectRoute current principal routeId nowUtc = .ok (stage, rows)) :
    Effect began snapshot current .opened stage rows ∧ stage.node = none := by
  unfold selectRoute at h
  split at h
  · cases h
  · split at h
    · cases h
    · simp only [bind_eq_ok, rejectIf_eq_ok, exists_const] at h
      obtain ⟨-, -, -, hstage⟩ := h
      cases hstage
      exact ⟨.routeSelected, rfl⟩

theorem checkRoute_effect {route : RegulatedRoute}
    (h : checkRoute began snapshot current route nowUtc = .ok (stage, rows)) :
    Effect began snapshot current (.routeLocked route) stage rows ∧
      stage.node = some route.nodeId := by
  simp only [checkRoute, bind_eq_ok, rejectIf_eq_ok, exists_const, Bool.not_eq_false] at h
  obtain ⟨capacity, hcapacity, rfl, hstage⟩ := h
  cases hstage
  obtain ⟨m, hlimit, hroom⟩ := checkReservedCapacityAndPolicy_ok hcapacity
  exact ⟨.routeChecked hlimit hroom, rfl⟩

theorem insertJob_effect {route : RegulatedRoute} {job : Job}
    (h : insertJob current route job = .ok (stage, rows)) :
    Effect began snapshot current (.routeChecked route) stage rows := by
  simp only [insertJob, bind_eq_ok, rejectIf_eq_ok, exists_const, not_or, not_not] at h
  obtain ⟨⟨-, hstatus, -, hpinned, -⟩, hstage⟩ := h
  cases hstage
  refine .inserted hstatus fun other now htakes => ?_
  rcases commitments_takes_job.mp htakes with ⟨-, hleased, -⟩ | ⟨-, hother, -⟩
  · simp [hstatus] at hleased
  · rw [hpinned, Option.some.injEq] at hother
    exact hother.symm

theorem useRoute_effect {route : RegulatedRoute} {fingerprint : String}
    (h : useRoute began current route jobId fingerprint = .ok (stage, rows)) :
    Effect began snapshot current (.routeUsed route jobId) stage rows := by
  simp only [useRoute, bind_eq_ok, fetchOne_eq_ok, Option.filter_eq_some_iff] at h
  obtain ⟨row, ⟨hrow, -⟩, hstage⟩ := h
  cases hstage
  have hid : row.id = route.id := Table.key_of_find hrow
  refine .used hid fun nodeId now => ?_
  rw [Bool.eq_false_iff, Ne, commitments_takes_route]
  rintro ⟨-, hstatus, -⟩
  cases hstatus

end Single

/-- A transaction keeps the node that it has locked. -/
theorem Effect.node {stage stage' : Stage} {rows : List SlotRow}
    (h : Effect began snapshot current stage stage' rows) :
    stage.node = none ∨ stage'.node = stage.node := by
  cases h with
  | ended kind =>
      rcases kind with rfl | ⟨nodeId, hnode, rfl⟩
      · exact .inr rfl
      · exact .inr hnode.symm
  | entered | nodeChecked | routeSelected | routeChecked => exact .inl rfl
  | claimChecked | hidden | offered | admitted | leased | selected | renewChecked | extended
  | hiddenExtended | hiddenChecked | prepared | inserted | used => exact .inr rfl

/-- Every statement has one of the effects, and locks the node that it goes on to
act on. -/
theorem runStatement_effect {stmt : Statement} {stage stage' : Stage} {rows : List SlotRow}
    (h : runStatement env began snapshot current stmt stage = .ok (stage', rows)) :
    Effect began snapshot current stage stage' rows ∧
      ∀ nodeId, stage'.node = some nodeId →
        stage.node = some nodeId ∨ nodeId ∈ stmt.locks stage := by
  have keeps (effect : Effect began snapshot current stage stage' rows)
      (hnode : stage.node ≠ none) : Effect began snapshot current stage stage' rows ∧
        ∀ nodeId, stage'.node = some nodeId →
          stage.node = some nodeId ∨ nodeId ∈ stmt.locks stage :=
    ⟨effect, fun nodeId hk => .inl (effect.node.resolve_left hnode ▸ hk)⟩
  have takes {locked : Uuid} (effect : Effect began snapshot current stage stage' rows)
      (hnode : ∀ nodeId, stage'.node = some nodeId → nodeId = locked)
      (hlocks : locked ∈ stmt.locks stage) : Effect began snapshot current stage stage' rows ∧
        ∀ nodeId, stage'.node = some nodeId →
          stage.node = some nodeId ∨ nodeId ∈ stmt.locks stage :=
    ⟨effect, fun nodeId hk => .inr (hnode nodeId hk ▸ hlocks)⟩
  unfold runStatement at h
  split at h
  · obtain ⟨effect, hnode⟩ := lockForClaim_effect h
    exact takes effect (fun nodeId hk => Option.some.inj (hk.symm.trans hnode))
      (List.mem_singleton.mpr rfl)
  · simp only [bind_eq_ok] at h
    obtain ⟨_, -, hstage⟩ := h
    cases hstage
    exact keeps (.ended (.inl rfl) trivial endedJobs_idle) (by simp [Stage.node])
  · simp only [bind_eq_ok] at h
    obtain ⟨_, -, hstage⟩ := h
    cases hstage
    exact keeps (.ended (.inl rfl) trivial endedJobs_idle) (by simp [Stage.node])
  · obtain ⟨rfl, rfl, hroom⟩ := enforce_ok h
    exact keeps (.claimChecked hroom) (by simp [Stage.node])
  · simp only [bind_eq_ok] at h
    obtain ⟨_, -, hstage⟩ := h
    cases hstage
    exact keeps (.ended (.inl rfl) trivial endedChallenges_idle) (by simp [Stage.node])
  · exact keeps (leaseHidden_effect h) (by simp [Stage.node])
  · exact keeps (selectCandidate_effect h) (by simp [Stage.node])
  · obtain ⟨rfl, rfl, hroom⟩ := enforce_ok h
    exact keeps (.admitted hroom) (by simp [Stage.node])
  · exact keeps (leaseCandidate_effect h) (by simp [Stage.node])
  · obtain ⟨effect, hnode⟩ := lockForRenewal_effect h
    exact takes effect (fun nodeId hk => Option.some.inj (hk.symm.trans hnode))
      (List.mem_singleton.mpr rfl)
  · exact keeps (selectLeased_effect h) (by simp [Stage.node])
  · simp only [failAttestation, bind_eq_ok] at h
    obtain ⟨_, -, hstage⟩ := h
    cases hstage
    exact keeps (.ended (.inr ⟨_, rfl, rfl⟩) trivial endedJobs_idle) (by simp [Stage.node])
  · obtain ⟨rfl, rfl, hroom⟩ := enforce_ok h
    exact keeps (.renewChecked hroom) (by simp [Stage.node])
  · exact keeps (extendLease_effect h) (by simp [Stage.node])
  · exact keeps (extendHidden_effect h) (by simp [Stage.node])
  · obtain ⟨rfl, rfl, hroom⟩ := enforce_ok h
    exact keeps (.hiddenChecked hroom) (by simp [Stage.node])
  · obtain ⟨effect, hnode⟩ := checkNode_effect h
    exact takes effect hnode (List.mem_singleton.mpr rfl)
  · exact keeps (insertRoute_effect h) (by simp [Stage.node])
  · obtain ⟨effect, hnode⟩ := selectRoute_effect h
    exact ⟨effect, fun nodeId hk => by simp [hnode] at hk⟩
  · obtain ⟨effect, hnode⟩ := checkRoute_effect h
    exact takes effect (fun nodeId hk => Option.some.inj (hk.symm.trans hnode))
      (List.mem_singleton.mpr rfl)
  · exact keeps (insertJob_effect h) (by simp [Stage.node])
  · exact keeps (useRoute_effect h) (by simp [Stage.node])
  · cases h

/-- Rows only take slots of the node that the transaction has locked. -/
theorem Effect.only {stage stage' : Stage} {rows : List SlotRow} {nodeId : Uuid}
    (h : Effect began snapshot current stage stage' rows) (hnode : stage'.node ≠ some nodeId) :
    ∀ row ∈ rows, ∀ now, commitments.takes nodeId now row = false := by
  have elsewhere {row : SlotRow} {locked : Uuid} (only : row.Only locked)
      (hne : some locked ≠ some nodeId) :
      ∀ other ∈ [row], ∀ now, commitments.takes nodeId now other = false := by
    intro other hother now
    rw [List.mem_singleton.mp hother, Bool.eq_false_iff]
    exact fun htakes => hne (congrArg some (only nodeId now htakes).symm)
  cases h with
  | ended _ _ idle => exact fun row hrow now => idle row hrow nodeId now
  | hidden only => exact elsewhere only hnode
  | leased _ only => exact elsewhere only hnode
  | extended _ only => exact elsewhere only hnode
  | hiddenExtended _ _ only => exact elsewhere only hnode
  | prepared only => exact elsewhere only hnode
  | inserted _ only => exact elsewhere only hnode
  | used _ idle =>
      intro row hrow now
      rw [List.mem_singleton.mp hrow]
      exact idle nodeId now
  | entered | claimChecked | offered | admitted | selected | renewChecked | hiddenChecked
  | nodeChecked | routeSelected | routeChecked => exact fun row hrow => by cases hrow

/-- A transaction that has just been opened counts on no node. -/
theorem Stage.opened_node_ne {nodeId : Uuid} : Stage.opened.node ≠ some nodeId :=
  fun h => nomatch h

theorem admission_execute {stmt : Statement} {stage : Stage} {result : Stage × List SlotRow}
    (h : (admission env).execute stmt stage began snapshot current = some result) :
    runStatement env began snapshot current stmt stage = .ok result := by
  simp only [admission] at h
  cases hrun : runStatement env began snapshot current stmt stage with
  | error error =>
      rw [hrun] at h
      cases h
  | ok found =>
      rw [hrun] at h
      cases h
      rfl

theorem admission_effect {stmt : Statement} {stage stage' : Stage} {rows : List SlotRow}
    (h : (admission env).execute stmt stage began snapshot current = some (stage', rows)) :
    Effect began snapshot current stage stage' rows ∧
      ∀ nodeId, stage'.node = some nodeId →
        stage.node = some nodeId ∨ nodeId ∈ stmt.locks stage :=
  runStatement_effect (admission_execute h)

/-- A transaction only learns of a node that its statement locks. -/
theorem admission_node {stmt : Statement} {stage stage' : Stage} {rows : List SlotRow}
    {nodeId : Uuid}
    (h : (admission env).execute stmt stage began snapshot current = some (stage', rows))
    (hnode : stage'.node = some nodeId) : stage.node = some nodeId ∨ nodeId ∈ stmt.locks stage :=
  (admission_effect h).2 nodeId hnode

end Effects

end MindOne.Coordinator

import MindOne.Coordinator.Nodes

/-!
# Hidden evaluation work

A challenge is claimed, renewed, answered and expired through the interface of
ordinary jobs, so that a worker cannot tell it apart. Its lease takes a slot of
the node like the lease of a job.
-/

namespace MindOne.Coordinator

open CheckedArithmetic Accounting Database KeyedTable

structure ClaimJobResponse where
  jobId : Uuid
  modelInstanceId : Uuid
  encryptedPayload : String
  tags : List String
  estimatedInputTokens : Int
  maxOutputTokens : Int
  attempt : Int
  leaseExpiresAt : Int
  confidentiality : ConfidentialityMode
  regulatedRouteId : Option Uuid
  attestationReportId : Option Uuid

/-- A challenge as the draw of a claim produces it. -/
structure ChallengeDraw where
  id : Uuid
  issuedAt : Int
  catalogValidUntil : Option Int
  encryptedPayload : String
  minimumInputTokens : Int
  maximumOutputTokens : Int

def leaseNotRenewable : ApiError :=
  .conflict "lease_not_renewable" "任务租约不存在、已过期或不属于当前节点"

def leaseExpired : ApiError := .conflict "lease_expired" "任务租约已经过期"

/-- The rows of `hidden_job_row`. -/
structure HiddenJobRow where
  challenge : EvaluationChallenge
  node : Node

def hiddenJobRow (db : Db) (jobId : Uuid) : Option HiddenJobRow := do
  let challenge ← db.workers.challenges.find jobId
  let node ← db.workers.nodes.find challenge.nodeId
  let _ ← db.workers.models.find challenge.modelId
  return ⟨challenge, node⟩

/-- The submitting node, its owner and its device are those of the claim. -/
def HiddenJobRow.OwnedBy (row : HiddenJobRow) (principal : Principal) (nodeId : Uuid) : Prop :=
  row.node.userId = principal.userId ∧ row.challenge.nodeId = nodeId ∧
    row.node.deviceKeyId = some principal.deviceKeyId ∧
    exactClaimDeviceBinding principal row.challenge.claimedUserId
      row.challenge.claimedDeviceKeyId row.challenge.claimDeviceBindingVersion

instance (row : HiddenJobRow) (principal : Principal) (nodeId : Uuid) :
    Decidable (row.OwnedBy principal nodeId) := inferInstanceAs (Decidable (_ ∧ _))

def verifyWorkerOwner (row : HiddenJobRow) (principal : Principal) (nodeId : Uuid) :
    ApiResult Unit :=
  rejectIf (¬ row.OwnedBy principal nodeId) (.forbidden "任务租约不属于当前节点")

def EvaluationChallenge.LeaseIsExpired (challenge : EvaluationChallenge) (now : Int) : Prop :=
  challenge.status = .leased ∧ challenge.leaseExpiresAt ≤ now

instance (challenge : EvaluationChallenge) (now : Int) :
    Decidable (challenge.LeaseIsExpired now) := inferInstanceAs (Decidable (_ ∧ _))

section Challenges
variable (env : Services)

/-- Write an ended challenge and the signal that it gives about its instance. -/
def Db.endChallenge (db : Db) (ended : EvaluationChallenge) (passed : Bool) : Db :=
  let workers := { db.workers with
    challenges := db.workers.challenges.set ended
    quarantined := env.canarySignal db ended.modelInstanceId passed }
  { db with workers }.finalizeDrainingInstance (some ended.modelInstanceId)

def completeExpiredFailure (db : Db) (challenge : EvaluationChallenge) : ApiResult Db := do
  env.authorizeTerminal challenge
  return db.endChallenge env { challenge with status := .failed } false

def expireStaleChallenges (db : Db) (nodeId : Uuid) (locked : Uuid → Bool) : ApiResult Db :=
  let expired := db.workers.challenges.rows.filter fun challenge =>
    challenge.nodeId = nodeId ∧ challenge.LeaseIsExpired db.now ∧ locked challenge.id = false
  (expired.mergeSort fun a b => a.id.asU128.toNat ≤ b.id.asU128.toNat).foldlM
    (completeExpiredFailure env) db

/-- The instance that a claim may be given a challenge for. -/
def hiddenCandidate (db : Db) (nodeId requestedModelInstanceId : Uuid) :
    Option ModelInstance :=
  (db.workers.modelInstances.find requestedModelInstanceId).filter fun mi =>
    mi.nodeId = nodeId ∧ mi.status = .published ∧
      (∃ model ∈ db.workers.models.find mi.modelId, model.enabled = true) ∧
      (∃ node ∈ db.workers.nodes.find nodeId, node.status = .online ∧
        ∃ seen ∈ node.lastSeenAt, db.now - ninetySeconds < seen) ∧
      ∀ challenge ∈ db.workers.challenges.rows, challenge.modelInstanceId = mi.id →
        challenge.status ≠ .leased ∧
          challenge.issuedAt ≤ db.now - env.evaluationInstanceCooldown

/-- A lease ends no later than the private catalog that its challenge comes from. -/
def cappedExpiry (expiry : Int) : Option Int → Int
  | none => expiry
  | some validUntil => min expiry validUntil

def insertChallengeClaim (db : Db) (principal : Principal) (mi : ModelInstance)
    (draw : ChallengeDraw) : ApiResult (Db × ClaimJobResponse) := do
  rejectIf (db.workers.challenges.find draw.id ≠ none) .internal
  let leaseExpiresAt := cappedExpiry (draw.issuedAt + env.leaseDuration) draw.catalogValidUntil
  let challenge : EvaluationChallenge := {
    id := draw.id
    modelId := mi.modelId
    modelInstanceId := mi.id
    nodeId := mi.nodeId
    status := .leased
    issuedAt := draw.issuedAt
    leaseExpiresAt
    privateCatalogValidUntil := draw.catalogValidUntil
    claimedUserId := some principal.userId
    claimedDeviceKeyId := some principal.deviceKeyId
    claimDeviceBindingVersion := some deviceBindingVersion
    workerSubmissionKind := none
    workerIdempotencyKey := none
    workerRequestHash := none }
  let workers := { db.workers with challenges := db.workers.challenges.set challenge }
  return ({ db with workers }, {
    jobId := draw.id
    modelInstanceId := mi.id
    encryptedPayload := draw.encryptedPayload
    tags := []
    estimatedInputTokens := draw.minimumInputTokens
    maxOutputTokens := draw.maximumOutputTokens
    attempt := 1
    leaseExpiresAt
    confidentiality := .standard
    regulatedRouteId := none
    attestationReportId := none })

/-- `draw` is absent when the random draw misses or another transaction holds the
instance. -/
def maybeClaimHiddenJob (db : Db) (principal : Principal)
    (nodeId requestedModelInstanceId : Uuid) (locked : Uuid → Bool)
    (draw : Option ChallengeDraw) : ApiResult (Db × Option ClaimJobResponse) := do
  let swept ← expireStaleChallenges env db nodeId locked
  match draw, hiddenCandidate env swept nodeId requestedModelInstanceId with
  | some draw, some mi => do
      let (claimed, response) ← insertChallengeClaim env swept principal mi draw
      return (claimed, some response)
  | _, _ => .ok (swept, none)

inductive HiddenRenewal where
  | renewed (leaseExpiresAt : Int)
  | expired
  deriving DecidableEq, Repr

def renewHiddenJob (db : Db) (principal : Principal) (jobId nodeId : Uuid) (nowUtc : Int) :
    ApiResult (Db × HiddenRenewal) :=
  match hiddenJobRow db jobId with
  | none => .error .internal
  | some row => do
      env.authorizeTerminal row.challenge
      rejectIf (¬ row.OwnedBy principal nodeId) leaseNotRenewable
      rejectIf (row.challenge.status ≠ .leased) leaseNotRenewable
      if row.challenge.leaseExpiresAt ≤ nowUtc ∨
          ∃ validUntil ∈ row.challenge.privateCatalogValidUntil, validUntil ≤ nowUtc then
        return (← completeExpiredFailure env db row.challenge, .expired)
      else
        let leaseExpiresAt := cappedExpiry (nowUtc + env.leaseDuration)
          row.challenge.privateCatalogValidUntil
        let renewed := { row.challenge with leaseExpiresAt }
        let workers := { db.workers with challenges := db.workers.challenges.set renewed }
        return ({ db with workers }, .renewed leaseExpiresAt)

/-- Its own transaction, which commits before the submission is looked at. -/
def expireHiddenJobIfNeeded (db : Db) (principal : Principal) (jobId nodeId : Uuid)
    (nowUtc : Int) : ApiResult (Db × Bool) :=
  match hiddenJobRow db jobId with
  | none => .ok (db, false)
  | some row => do
      env.authorizeTerminal row.challenge
      verifyWorkerOwner row principal nodeId
      if row.challenge.LeaseIsExpired nowUtc then
        return (← completeExpiredFailure env db row.challenge, true)
      else return (db, false)

def verifyIdempotentSubmission (challenge : EvaluationChallenge)
    (kind idempotencyKey requestHash : String) : ApiResult Unit :=
  rejectIf (challenge.workerSubmissionKind ≠ some kind ∨
      challenge.workerIdempotencyKey ≠ some idempotencyKey ∨
      challenge.workerRequestHash ≠ some requestHash)
    (.conflict "idempotency_binding_mismatch" "任务幂等键已绑定到不同提交内容")

/-- What results and failure reports of hidden work share. The answer is whether
the submission is a replay. -/
def submitHidden (db : Db) (principal : Principal) (jobId nodeId : Uuid)
    (kind idempotencyKey requestHash : String) (nowUtc : Int)
    (replayable : EvaluationChallenge → ApiResult Unit)
    (score : EvaluationChallenge → ApiResult Bool) : ApiResult (Db × ApiResult Bool) :=
  match hiddenJobRow db jobId with
  | none => .error .internal
  | some row => do
      env.authorizeTerminal row.challenge
      verifyWorkerOwner row principal nodeId
      let finalized := db.finalizeDrainingInstance (some row.challenge.modelInstanceId)
      if row.challenge.workerSubmissionKind ≠ none then
        verifyIdempotentSubmission row.challenge kind idempotencyKey requestHash
        replayable row.challenge
        return (finalized, .ok true)
      else if row.challenge.status = .failed ∨ row.challenge.status = .expired then
        return (finalized, .error leaseExpired)
      else if row.challenge.LeaseIsExpired nowUtc then
        return (← completeExpiredFailure env db row.challenge, .error leaseExpired)
      else
        rejectIf (row.challenge.status ≠ .leased)
          (.conflict "job_not_leased" "任务当前不接受提交")
        let passed ← score row.challenge
        let ended := { row.challenge with
          status := if passed = true then .succeeded else .failed
          workerSubmissionKind := some kind
          workerIdempotencyKey := some idempotencyKey
          workerRequestHash := some requestHash }
        return (db.endChallenge env ended passed, .ok false)

/-- Expire first, in a transaction of its own, then submit. -/
def submitUnlessExpired (db : Db) (principal : Principal) (jobId nodeId : Uuid) (nowUtc : Int)
    (submit : Db → ApiResult (Db × ApiResult Bool)) : ApiResult (Db × ApiResult Bool) := do
  let (swept, expired) ← expireHiddenJobIfNeeded env db principal jobId nodeId nowUtc
  if expired = true then return (swept, .error leaseExpired)
  else submit swept

def submitHiddenJobResult (db : Db) (principal : Principal) (jobId : Uuid)
    (request : JobResultRequest) (nowUtc : Int) : ApiResult (Db × ApiResult Bool) :=
  submitHidden env db principal jobId request.nodeId "result" request.idempotencyKey
    (env.resultRequestHash request) nowUtc
    (fun challenge => rejectIf (challenge.status ≠ .succeeded ∧ challenge.status ≠ .failed)
      (.conflict "job_not_leased" "任务当前不接受结果"))
    fun challenge => env.submittedAnswerMatches db challenge request

def submitHiddenJobFailure (db : Db) (principal : Principal) (jobId : Uuid)
    (request : JobFailRequest) (nowUtc : Int) : ApiResult (Db × ApiResult Bool) :=
  submitHidden env db principal jobId request.nodeId "fail" request.idempotencyKey
    (env.failureRequestHash request) nowUtc (fun _ => .ok ()) fun _ => .ok false

end Challenges

end MindOne.Coordinator

import MindOne.Coordinator.Challenges
import MindOne.Evaluations.Canary
import MindOne.Stream.Events

/-!
# The ends of a hidden evaluation challenge

A challenge is ended by its result, by a report of failure, by a renewal that comes
too late, by any access after its lease has run out, or by a sweep in the
background. Each is a transaction that locks the row of the challenge. All of them
record the end in the same tables: the row, the lifecycle events, the arbitration
of private challenges and the signals of the canary.
-/

namespace MindOne.Evaluations

open CheckedArithmetic Coordinator KeyedTable
open MindOne.Stream (okOr)

inductive ChallengeKind where
  | hiddenBenchmark | canary
  deriving DecidableEq, Repr

inductive LifecycleKind where
  | issued | completed | expired | workerFailed
  deriving DecidableEq, Repr

/-- The commitments that a private challenge of version 2 is stored with. -/
inductive CommitmentColumn where
  | catalogStatement | catalogId | catalogEntry | caseFamily | evaluatorId | evaluatorKey
  | prompt | expected | account | device | node
  deriving DecidableEq, Repr

def CommitmentColumn.all : List CommitmentColumn :=
  [.catalogStatement, .catalogId, .catalogEntry, .caseFamily, .evaluatorId, .evaluatorKey,
    .prompt, .expected, .account, .device, .node]

/-- A row of `model_evaluation_challenges` as far as its end depends on it. -/
structure HiddenChallenge where
  id : Uuid
  modelId : Uuid
  modelInstanceId : Uuid
  nodeId : Uuid
  challengeKind : ChallengeKind
  challengeSeed : Option (List UInt8)
  promptHash : Option String
  expectedHash : Option String
  status : ChallengeStatus
  leaseExpiresAt : Int
  resultHash : Option String
  scoreNormalized : Option Int
  resultingTier : Option String
  resultingEvaluationSamples : Option Int
  completedAt : Option Int
  workerSubmissionKind : Option String
  workerIdempotencyKey : Option String
  workerRequestHash : Option String
  modelWeightsHash : Option String
  challengeBindingHash : Option String
  privateCatalogId : Option String
  privateCatalogEntryId : Option String
  privateCaseFamily : Option String
  privateCatalogCommitment : Option String
  privateEvaluatorId : Option String
  privateEvaluatorKeyFingerprint : Option String
  privateCatalogValidUntil : Option Int
  privateCommitmentVersion : Option Int
  privateCommitment : CommitmentColumn → Option String
  claimedUserId : Option Uuid
  claimedDeviceKeyId : Option Uuid
  claimDeviceBindingVersion : Option Int

structure LifecycleEvent where
  challengeId : Uuid
  eventKind : LifecycleKind
  promptHash : Option String
  privateCommitments : Option (CommitmentColumn → String)
  resultHash : Option String
  scoreNormalized : Option Int

inductive Verdict where
  | pending | corroborated | disputed
  deriving DecidableEq, Repr

/-- What makes arbitration events comparable. -/
structure ArbitrationScope where
  version : Int
  modelWeightsHash : String
  evaluator : String
  caseFamily : String
  deriving DecidableEq

/-- A row of `model_authenticity_arbitration_events`. -/
structure ArbitrationEvent where
  id : Uuid
  createdAt : Int
  challengeId : Uuid
  modelId : Uuid
  modelInstanceId : Uuid
  scope : ArbitrationScope
  challengeBindingHash : String
  passed : Bool
  observed : Nat
  passing : Nat
  failing : Nat
  verdict : Verdict

structure ModelQuality where
  id : Uuid
  tier : String
  evaluationSamples : Int

/-- What other parts of the service change: the instances, the leased jobs by their
instances, the nodes and the models. -/
structure Surroundings where
  instances : Table ModelInstance.id
  leasedJobs : List Uuid
  nodes : Table Node.id
  models : Table ModelQuality.id

structure EvaluationDb where
  challenges : Table HiddenChallenge.id
  lifecycle : List LifecycleEvent
  arbitrations : List ArbitrationEvent
  canary : CanaryTables
  around : Surroundings

structure EvaluationServices where
  resultRequestHash : JobResultRequest → String
  failureRequestHash : JobFailRequest → String
  saltedCommitment : Uuid → List UInt8 → String → String
  sha256Hex : String → String
  /-- Whether a commitment to the expected behaviour fits an answer, given the key. -/
  commitmentMatches : String → String → String → ApiResult Bool
  /-- The trimmed answer in a result that fits the definition of its challenge. -/
  validatedOutput : HiddenChallenge → List UInt8 → JobResultRequest → ApiResult String
  leaseDuration : Int
  /-- The key of `private_evaluation_terminal_capability`. -/
  terminalCapability : Option String

/-- The clocks that a transaction reads, and the identifiers it draws for the arbitration
events of challenges. -/
structure Transaction where
  began : Int
  now : Int
  later : Int
  arbitrationId : Uuid → Uuid

inductive TerminalMutationAuthorization where
  | legacy
  | v2 (hmacKey : String)

def privateCommitmentVersion : Int := 2

def authorizeTerminalMutation (version : Option Int) (capability : Option String) :
    ApiResult TerminalMutationAuthorization :=
  match version with
  | none => .ok .legacy
  | some version =>
      if version = privateCommitmentVersion then
        okOr .internal (capability.map .v2)
      else .error .internal

def authorizeTerminalRow (challenge : HiddenChallenge) (capability : Option String) :
    ApiResult TerminalMutationAuthorization :=
  authorizeTerminalMutation challenge.privateCommitmentVersion capability

def verifyTerminalAuthorization (challenge : HiddenChallenge) :
    TerminalMutationAuthorization → ApiResult Unit
  | .legacy => rejectIf (challenge.privateCommitmentVersion ≠ none) .internal
  | .v2 _ =>
      rejectIf (challenge.privateCommitmentVersion ≠ some privateCommitmentVersion) .internal

section Rows
variable (challenge : HiddenChallenge)

/-- The two columns of the metadata that scope an arbitration. -/
structure PrivateChallengeMetadata where
  evaluatorKeyFingerprint : String
  caseFamily : String

def privateMetadataFromRow : ApiResult (Option PrivateChallengeMetadata) :=
  if challenge.privateCommitmentVersion ≠ none ∨ challenge.privateCatalogCommitment = none then
    .ok none
  else do
    let _ ← okOr .internal challenge.privateCatalogId
    let _ ← okOr .internal challenge.privateCatalogEntryId
    let caseFamily ← okOr .internal challenge.privateCaseFamily
    let _ ← okOr .internal challenge.privateEvaluatorId
    let evaluatorKeyFingerprint ← okOr .internal challenge.privateEvaluatorKeyFingerprint
    let _ ← okOr .internal challenge.privateCatalogValidUntil
    return some ⟨evaluatorKeyFingerprint, caseFamily⟩

/-- Sixty-four lower-case hexadecimal digits. -/
def isCommitment (text : String) : Bool :=
  text.length = 64 && text.toList.all fun c => c.isDigit || ('a' ≤ c && c ≤ 'f')

def privateV2CommitmentsFromRow : ApiResult (Option (CommitmentColumn → String)) :=
  match challenge.privateCommitmentVersion with
  | none => .ok none
  | some version =>
      if version = privateCommitmentVersion ∧
          ∀ column ∈ CommitmentColumn.all, (challenge.privateCommitment column).any isCommitment
      then .ok (some fun column => (challenge.privateCommitment column).getD "")
      else .error .internal

def lifecycleSnapshotFromRow :
    ApiResult (Option String × Option (CommitmentColumn → String)) := do
  match ← privateV2CommitmentsFromRow challenge with
  | some commitments => do
      rejectIf (challenge.promptHash ≠ none) .internal
      return (none, some commitments)
  | none => do
      let promptHash ← okOr .internal challenge.promptHash
      return (some promptHash, none)

def challengeSeed : ApiResult (List UInt8) :=
  match challenge.challengeSeed with
  | none => .error .internal
  | some seed => if seed.length = 32 then .ok seed else .error .internal

def HiddenChallenge.LeaseExpired (now : Int) : Prop :=
  challenge.status = .leased ∧ challenge.leaseExpiresAt ≤ now

instance (now : Int) : Decidable (challenge.LeaseExpired now) :=
  inferInstanceAs (Decidable (_ ∧ _))

def ensureLiveLease (now : Int) : ApiResult Unit := do
  rejectIf (challenge.status ≠ .leased) (.conflict "job_not_leased" "任务当前不接受提交")
  rejectIf (challenge.LeaseExpired now) leaseExpired

/-- The score of an ended challenge. -/
def HiddenChallenge.ended (status : ChallengeStatus) (resultHash : String) (scoreNormalized : Int)
    (quality : ModelQuality) (completedAt : Int) : HiddenChallenge :=
  { challenge with
    challengeSeed := none
    status
    resultHash := some resultHash
    scoreNormalized := some scoreNormalized
    resultingTier := some quality.tier
    resultingEvaluationSamples := some quality.evaluationSamples
    completedAt := some completedAt }

def HiddenChallenge.submitted (kind idempotencyKey requestHash : String) : HiddenChallenge :=
  { challenge with
    workerSubmissionKind := some kind
    workerIdempotencyKey := some idempotencyKey
    workerRequestHash := some requestHash }

def verifyIdempotentHiddenSubmission (kind idempotencyKey requestHash : String) : ApiResult Unit :=
  rejectIf (challenge.workerSubmissionKind ≠ some kind ∨
      challenge.workerIdempotencyKey ≠ some idempotencyKey ∨
      challenge.workerRequestHash ≠ some requestHash)
    (.conflict "idempotency_binding_mismatch" "任务幂等键已绑定到不同提交内容")

end Rows

/-- The challenge and the node of `hidden_job_row`. -/
structure HiddenRow where
  challenge : HiddenChallenge
  node : Node

def HiddenRow.Owned (row : HiddenRow) (principal : Principal) (nodeId : Uuid) : Prop :=
  row.node.userId = principal.userId ∧ row.challenge.nodeId = nodeId ∧
    row.node.deviceKeyId = some principal.deviceKeyId ∧
    exactClaimDeviceBinding principal row.challenge.claimedUserId
      row.challenge.claimedDeviceKeyId row.challenge.claimDeviceBindingVersion

instance (row : HiddenRow) (principal : Principal) (nodeId : Uuid) :
    Decidable (row.Owned principal nodeId) := inferInstanceAs (Decidable (_ ∧ _))

namespace EvaluationDb
variable (services : EvaluationServices) (db : EvaluationDb)

def hiddenJobRow (jobId : Uuid) : Option HiddenRow := do
  let challenge ← db.challenges.find jobId
  let node ← db.around.nodes.find challenge.nodeId
  let _ ← db.around.models.find challenge.modelId
  return ⟨challenge, node⟩

def modelQualitySnapshot (modelId : Uuid) : ApiResult ModelQuality :=
  okOr .internal (db.around.models.find modelId)

/-- `ON CONFLICT (challenge_id,event_kind) DO NOTHING` -/
def insertLifecycleEvent (event : LifecycleEvent) : EvaluationDb :=
  if ∃ known ∈ db.lifecycle, known.challengeId = event.challengeId ∧
      known.eventKind = event.eventKind then db
  else { db with lifecycle := db.lifecycle ++ [event] }

/-- `ORDER BY created_at DESC,id DESC` -/
def newerThan (a b : ArbitrationEvent) : Prop :=
  b.createdAt < a.createdAt ∨ b.createdAt = a.createdAt ∧ b.id.asU128.toNat < a.id.asU128.toNat

instance (a b : ArbitrationEvent) : Decidable (newerThan a b) :=
  inferInstanceAs (Decidable (_ ∨ _ ∧ _))

/-- The newest event of every other instance in the scope. -/
def latestPerInstance (scope : ArbitrationScope) (modelInstanceId : Uuid) :
    List ArbitrationEvent :=
  let events := db.arbitrations.filter fun event =>
    event.scope = scope ∧ event.modelInstanceId ≠ modelInstanceId
  events.filter fun event => ∀ other ∈ events, other.modelInstanceId = event.modelInstanceId →
    ¬ newerThan other event

def arbitrationScope (challenge : HiddenChallenge) :
    TerminalMutationAuthorization → ApiResult (Option (Int × String × String))
  | authorization => do
      match ← privateMetadataFromRow challenge, ← privateV2CommitmentsFromRow challenge,
          authorization with
      | some metadata, none, .legacy =>
          return some (1, metadata.evaluatorKeyFingerprint, metadata.caseFamily)
      | none, some commitments, .v2 _ =>
          return some (privateCommitmentVersion, commitments .evaluatorKey,
            commitments .caseFamily)
      | none, none, .legacy => return none
      | _, _, _ => .error .internal

def verdictOf (observed passing failing : Nat) : Verdict :=
  if observed < 2 then .pending
  else if failing = 0 ∧ 2 ≤ passing then .corroborated
  else .disputed

/-- The columns of the scope that the row of the challenge holds itself. -/
def arbitrate (transaction : Transaction) (challenge : HiddenChallenge) (passed : Bool)
    (version : Int) (evaluator caseFamily : String) : ApiResult ArbitrationEvent := do
  rejectIf (challenge.challengeKind ≠ .hiddenBenchmark) .internal
  let modelWeightsHash ← okOr .internal challenge.modelWeightsHash
  let challengeBindingHash ← okOr .internal challenge.challengeBindingHash
  let scope : ArbitrationScope := ⟨version, modelWeightsHash, evaluator, caseFamily⟩
  let previous := db.latestPerInstance scope challenge.modelInstanceId
  let observed := previous.length + 1
  let passing := (previous.filter ArbitrationEvent.passed).length + passed.toNat
  let failing := (previous.filter fun event => !event.passed).length + (!passed).toNat
  rejectIf (2147483647 < observed ∨ 2147483647 < passing ∨ 2147483647 < failing) .internal
  rejectIf (∃ event ∈ db.arbitrations, event.challengeId = challenge.id) .internal
  return {
    id := transaction.arbitrationId challenge.id
    createdAt := transaction.began
    challengeId := challenge.id
    modelId := challenge.modelId
    modelInstanceId := challenge.modelInstanceId
    scope
    challengeBindingHash
    passed
    observed
    passing
    failing
    verdict := verdictOf observed passing failing }

def recordPrivateAuthenticityArbitration (transaction : Transaction) (challenge : HiddenChallenge)
    (passed : Bool) (authorization : TerminalMutationAuthorization) : ApiResult EvaluationDb := do
  match ← arbitrationScope challenge authorization with
  | none => return db
  | some (version, evaluator, caseFamily) => do
      let event ← db.arbitrate transaction challenge passed version evaluator caseFamily
      return { db with arbitrations := db.arbitrations ++ [event] }

/-- No job and no challenge of the instance is leased. -/
def Idle (modelInstanceId : Uuid) : Prop :=
  modelInstanceId ∉ db.around.leasedJobs ∧
    ∀ challenge ∈ db.challenges.rows, challenge.modelInstanceId = modelInstanceId →
      challenge.status ≠ .leased

instance (modelInstanceId : Uuid) : Decidable (db.Idle modelInstanceId) :=
  inferInstanceAs (Decidable (_ ∧ _))

def finalizeDrainingInstance (modelInstanceId : Uuid) : EvaluationDb :=
  match db.around.instances.find modelInstanceId with
  | none => db
  | some mi =>
      if mi.status = .draining ∧ db.Idle modelInstanceId then
        { db with around := { db.around with
            instances := db.around.instances.set { mi with status := .unpublished } } }
      else db

/-- The lifecycle events of an end, with the same snapshot in each of them. -/
def lifecycleEvents (challengeId : Uuid)
    (snapshot : Option String × Option (CommitmentColumn → String))
    (events : List (LifecycleKind × Option String × Option Int)) : List LifecycleEvent :=
  events.map fun (eventKind, resultHash, scoreNormalized) =>
    ⟨challengeId, eventKind, snapshot.1, snapshot.2, resultHash, scoreNormalized⟩

/-- What every end of a challenge records besides its row. -/
def recordEnd (transaction : Transaction) (challenge : HiddenChallenge)
    (authorization : TerminalMutationAuthorization) (passed : Bool) (reasonCode : CanaryReason)
    (events : List (LifecycleKind × Option String × Option Int)) : ApiResult EvaluationDb := do
  let snapshot ← lifecycleSnapshotFromRow challenge
  let noted := (lifecycleEvents challenge.id snapshot events).foldl insertLifecycleEvent db
  let arbitrated ←
    noted.recordPrivateAuthenticityArbitration transaction challenge passed authorization
  let canary := recordInstanceCanarySignal arbitrated.canary
    ⟨challenge.id, challenge.modelInstanceId, passed, reasonCode, transaction.began⟩
  return { arbitrated with canary }.finalizeDrainingInstance challenge.modelInstanceId

/-- `UPDATE ... WHERE id=$1 AND status='leased'` -/
def failLeased (challengeId : Uuid) (resultHash : String) (quality : ModelQuality)
    (completedAt : Int) : EvaluationDb :=
  { db with
    challenges := db.challenges.mapRows
      (fun challenge => if challenge.id = challengeId ∧ challenge.status = .leased then
        challenge.ended .failed resultHash 0 quality completedAt else challenge) (by
      intro challenge
      split <;> rfl) }

def completeExpiredFailure (transaction : Transaction) (challenge : HiddenChallenge)
    (authorization : TerminalMutationAuthorization) : ApiResult EvaluationDb := do
  verifyTerminalAuthorization challenge authorization
  let seed ← challengeSeed challenge
  let resultHash := services.saltedCommitment challenge.id seed "lease-expired"
  let quality ← db.modelQualitySnapshot challenge.modelId
  (db.failLeased challenge.id resultHash quality transaction.began).recordEnd transaction
    challenge authorization false .leaseExpired
    [(.expired, none, none), (.completed, some resultHash, some 0)]

def expireChallenges (transaction : Transaction) (capability : Option String)
    (challenges : List HiddenChallenge) : ApiResult EvaluationDb :=
  challenges.foldlM (fun db challenge => do
    let authorization ← authorizeTerminalRow challenge capability
    db.completeExpiredFailure services transaction challenge authorization) db

/-- `locked` rows are skipped. -/
def expireStaleChallenges (transaction : Transaction) (nodeId : Uuid) (locked : Uuid → Bool) :
    ApiResult EvaluationDb :=
  let expired := db.challenges.rows.filter fun challenge =>
    challenge.nodeId = nodeId ∧ challenge.LeaseExpired transaction.began ∧
      locked challenge.id = false
  db.expireChallenges services transaction services.terminalCapability
    (expired.mergeSort fun a b => a.id.asU128.toNat ≤ b.id.asU128.toNat)

def expirySweepBatchSize : Nat := 128

/-- `ORDER BY lease_expires_at,id` -/
def sweepOrder (a b : HiddenChallenge) : Bool :=
  a.leaseExpiresAt < b.leaseExpiresAt ||
    (a.leaseExpiresAt = b.leaseExpiresAt && a.id.asU128.toNat ≤ b.id.asU128.toNat)

def sweepExpiredHiddenJobs (transaction : Transaction) (capability : Option String)
    (includeV2 : Bool) (locked : Uuid → Bool) : ApiResult EvaluationDb :=
  let expired := db.challenges.rows.filter fun challenge =>
    challenge.LeaseExpired transaction.began ∧
      (includeV2 = true ∨ challenge.privateCommitmentVersion = none) ∧
      locked challenge.id = false
  db.expireChallenges services transaction capability
    ((expired.mergeSort sweepOrder).take expirySweepBatchSize)

inductive HiddenAnswer where
  | result (idempotentReplay : Bool)
  | failure (idempotentReplay : Bool)
  | renewed (leaseExpiresAt : Int)
  | expired (expired : Bool)
  deriving DecidableEq, Repr

/-- What results and failure reports share. A transaction that commits returns its answer
with the database, one that is rolled back only its error. -/
def submit (transaction : Transaction) (principal : Principal) (jobId nodeId : Uuid)
    (kind idempotencyKey requestHash : String) (replay : HiddenChallenge → ApiResult HiddenAnswer)
    (finish : HiddenChallenge → TerminalMutationAuthorization → ApiResult EvaluationDb)
    (answer : HiddenAnswer) : ApiResult (EvaluationDb × ApiResult HiddenAnswer) :=
  match db.hiddenJobRow jobId with
  | none => .error .internal
  | some row => do
      let authorization ← authorizeTerminalRow row.challenge services.terminalCapability
      rejectIf (¬ row.Owned principal nodeId) (.forbidden "任务租约不属于当前节点")
      let finalized := db.finalizeDrainingInstance row.challenge.modelInstanceId
      if row.challenge.workerSubmissionKind ≠ none then
        verifyIdempotentHiddenSubmission row.challenge kind idempotencyKey requestHash
        let replayed ← replay row.challenge
        return (finalized, .ok replayed)
      else if row.challenge.status = .failed ∨ row.challenge.status = .expired then
        return (finalized, .error leaseExpired)
      else if row.challenge.LeaseExpired transaction.now then
        let expired ←
          db.completeExpiredFailure services transaction row.challenge authorization
        return (expired, .error leaseExpired)
      else
        ensureLiveLease row.challenge transaction.later
        let ended ← finish row.challenge authorization
        return (ended, .ok answer)

def submittedAnswerMatches (challenge : HiddenChallenge) (normalizedOutput : String)
    (authorization : TerminalMutationAuthorization) : ApiResult Bool :=
  match challenge.privateCommitmentVersion, authorization with
  | none, _ => do
      let expectedHash ← okOr .internal challenge.expectedHash
      return expectedHash = services.sha256Hex normalizedOutput
  | some version, .v2 hmacKey =>
      if version = privateCommitmentVersion then do
        let expected ← okOr .internal (challenge.privateCommitment .expected)
        services.commitmentMatches hmacKey normalizedOutput expected
      else .error .internal
  | some _, .legacy => .error .internal

/-- A result that is answered in time. -/
def finishResult (transaction : Transaction) (request : JobResultRequest)
    (challenge : HiddenChallenge) (authorization : TerminalMutationAuthorization) :
    ApiResult EvaluationDb := do
  let seed ← challengeSeed challenge
  let output ← services.validatedOutput challenge seed request
  let passed ← submittedAnswerMatches services challenge output authorization
  let requestHash := services.resultRequestHash request
  let resultHash := services.saltedCommitment challenge.id seed requestHash
  let score : Int := if passed = true then 1000000 else 0
  let quality ← db.modelQualitySnapshot challenge.modelId
  let status : ChallengeStatus := if passed = true then .succeeded else .failed
  let ended := (challenge.ended status resultHash score quality transaction.began).submitted
    "result" request.idempotencyKey requestHash
  { db with challenges := db.challenges.set ended }.recordEnd transaction challenge authorization
    passed (if passed = true then .answerMatch else .answerMismatch)
    [(.completed, some resultHash, some score)]

def finishFailure (transaction : Transaction) (request : JobFailRequest)
    (challenge : HiddenChallenge) (authorization : TerminalMutationAuthorization) :
    ApiResult EvaluationDb := do
  let seed ← challengeSeed challenge
  let requestHash := services.failureRequestHash request
  let failureHash := services.saltedCommitment challenge.id seed requestHash
  let quality ← db.modelQualitySnapshot challenge.modelId
  let ended := (challenge.ended .failed failureHash 0 quality transaction.began).submitted
    "fail" request.idempotencyKey requestHash
  { db with challenges := db.challenges.set ended }.recordEnd transaction challenge authorization
    false .workerFailed
    [(.workerFailed, some failureHash, none), (.completed, some failureHash, some 0)]

def terminalResultResponse (challenge : HiddenChallenge) : ApiResult HiddenAnswer := do
  rejectIf (challenge.status ≠ .succeeded ∧ challenge.status ≠ .failed)
    (.conflict "job_not_leased" "任务当前不接受结果")
  return .result true

def submitHiddenJobResult (transaction : Transaction) (principal : Principal) (jobId : Uuid)
    (request : JobResultRequest) : ApiResult (EvaluationDb × ApiResult HiddenAnswer) :=
  db.submit services transaction principal jobId request.nodeId "result" request.idempotencyKey
    (services.resultRequestHash request) terminalResultResponse
    (db.finishResult services transaction request) (.result false)

def submitHiddenJobFailure (transaction : Transaction) (principal : Principal) (jobId : Uuid)
    (request : JobFailRequest) : ApiResult (EvaluationDb × ApiResult HiddenAnswer) :=
  db.submit services transaction principal jobId request.nodeId "fail" request.idempotencyKey
    (services.failureRequestHash request) (fun _ => .ok (.failure true))
    (db.finishFailure services transaction request) (.failure false)

/-- The policy of the node is checked after the lease has been prolonged, and may still
undo it. -/
def renewHiddenJob (transaction : Transaction) (principal : Principal) (jobId nodeId : Uuid)
    (policy : ApiResult Unit) : ApiResult (EvaluationDb × ApiResult HiddenAnswer) :=
  match db.hiddenJobRow jobId with
  | none => .error .internal
  | some row => do
      let authorization ← authorizeTerminalRow row.challenge services.terminalCapability
      rejectIf (¬ row.Owned principal nodeId) leaseNotRenewable
      rejectIf (row.challenge.status ≠ .leased) leaseNotRenewable
      if row.challenge.leaseExpiresAt ≤ transaction.now ∨
          ∃ validUntil ∈ row.challenge.privateCatalogValidUntil, validUntil ≤ transaction.later then
        let expired ←
          db.completeExpiredFailure services transaction row.challenge authorization
        return (expired, .error leaseNotRenewable)
      else
        policy
        let leaseExpiresAt := cappedExpiry (transaction.later + services.leaseDuration)
          row.challenge.privateCatalogValidUntil
        let challenges := db.challenges.set { row.challenge with leaseExpiresAt }
        return ({ db with challenges }, .ok (.renewed leaseExpiresAt))

def expireHiddenJobIfNeeded (transaction : Transaction) (principal : Principal)
    (jobId nodeId : Uuid) : ApiResult (EvaluationDb × ApiResult HiddenAnswer) :=
  match db.hiddenJobRow jobId with
  | none => .ok (db, .ok (.expired false))
  | some row => do
      let authorization ← authorizeTerminalRow row.challenge services.terminalCapability
      rejectIf (¬ row.Owned principal nodeId) (.forbidden "任务租约不属于当前节点")
      if row.challenge.LeaseExpired transaction.now then
        let expired ←
          db.completeExpiredFailure services transaction row.challenge authorization
        return (expired, .ok (.expired true))
      else return (db, .ok (.expired false))

/-- What a worker may ask about one of its challenges. -/
inductive WorkerRequest where
  | result (request : JobResultRequest)
  | failure (request : JobFailRequest)
  | renew (nodeId : Uuid) (policy : ApiResult Unit)
  | expireIfNeeded (nodeId : Uuid)

def serve (transaction : Transaction) (principal : Principal) (jobId : Uuid) :
    WorkerRequest → ApiResult (EvaluationDb × ApiResult HiddenAnswer)
  | .result request => db.submitHiddenJobResult services transaction principal jobId request
  | .failure request => db.submitHiddenJobFailure services transaction principal jobId request
  | .renew nodeId policy =>
      db.renewHiddenJob services transaction principal jobId nodeId policy
  | .expireIfNeeded nodeId =>
      db.expireHiddenJobIfNeeded services transaction principal jobId nodeId

/-- What the worker is told. -/
def answerOf : ApiResult (EvaluationDb × ApiResult HiddenAnswer) → ApiResult HiddenAnswer
  | .ok (_, answer) => answer
  | .error error => .error error

/-- The database that a transaction leaves; an error rolls it back. -/
def after (db : EvaluationDb) : ApiResult (EvaluationDb × ApiResult HiddenAnswer) → EvaluationDb
  | .ok (next, _) => next
  | .error _ => db

inductive EvaluationEvent where
  /-- A challenge is handed out, with its first lifecycle event. -/
  | issue (challenge : HiddenChallenge) (event : LifecycleEvent)
  | serve (transaction : Transaction) (principal : Principal) (jobId : Uuid)
      (request : WorkerRequest)
  | sweep (transaction : Transaction) (capability : Option String) (includeV2 : Bool)
      (locked : Uuid → Bool)
  /-- The part of a claim that ends the challenges of the node. -/
  | expireStale (transaction : Transaction) (nodeId : Uuid) (locked : Uuid → Bool)
  /-- Something else happens to instances, jobs, nodes and models. -/
  | elsewhere (around : Surroundings)

/-- A new challenge, as `issue` writes it. -/
def Issues (challenge : HiddenChallenge) (event : LifecycleEvent) : Prop :=
  db.challenges.find challenge.id = none ∧ challenge.status = .leased ∧
    challenge.challengeSeed ≠ none ∧ challenge.workerSubmissionKind = none ∧
    event.challengeId = challenge.id ∧ event.eventKind = .issued

instance (challenge : HiddenChallenge) (event : LifecycleEvent) :
    Decidable (db.Issues challenge event) :=
  inferInstanceAs (Decidable (_ ∧ _ ∧ _ ∧ _ ∧ _ ∧ _))

def step (event : EvaluationEvent) (db : EvaluationDb) : Option EvaluationDb :=
  match event with
  | .issue challenge event =>
      if db.Issues challenge event then
        some { db with
          challenges := db.challenges.set challenge
          lifecycle := db.lifecycle ++ [event] }
      else none
  | .serve transaction principal jobId request =>
      some (db.after (db.serve services transaction principal jobId request))
  | .sweep transaction capability includeV2 locked =>
      match db.sweepExpiredHiddenJobs services transaction capability includeV2 locked with
      | .ok next => some next
      | .error _ => some db
  | .expireStale transaction nodeId locked =>
      match db.expireStaleChallenges services transaction nodeId locked with
      | .ok next => some next
      | .error _ => some db
  | .elsewhere around => some { db with around }

def initial (around : Surroundings) : EvaluationDb := ⟨.empty, [], [], .empty, around⟩

end EvaluationDb

end MindOne.Evaluations

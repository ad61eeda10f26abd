import MindOne.Attestation.HardwareTrust
import MindOne.Regulated.Binding

/-!
# Prepared routes and the check of the consumer

The coordinator prepares a route from the report behind the trust of a node, and answers
a repeated request with the same route. The consumer trusts none of it and checks the
report again. The two sides agree: of what the consumer checks, a route from the
coordinator leaves open only its expiry, the clocks, a key of zeros and the local verdict
on the evidence.
-/

namespace MindOne.Attestation

open CheckedArithmetic Coordinator KeyedTable MindOne.Stream Regulated

section Rows

/-- A row of `regulated_routes`, without what is billed and sent for it. -/
structure PreparedRoute where
  id : Uuid
  userId : Uuid
  idempotencyKey : String
  prepareRequestFingerprint : String
  modelId : Uuid
  modelInstanceId : Uuid
  nodeId : Uuid
  attestationReportId : Uuid
  status : RouteStatus
  expiresAt : OffsetDateTime

structure RouteDb where
  trust : TrustDb
  routes : Table PreparedRoute.id
  /-- The responses that have been sent. -/
  answered : List PrepareRegulatedJobResponse

def RouteDb.initial (now : OffsetDateTime) : RouteDb := ⟨.initial now, .empty, []⟩

/-- The request as far as it is read here; the fingerprint is the digest of all of it. -/
structure PrepareRequest where
  idempotencyKey : String
  fingerprint : String

end Rows

section Preparing

def preparedRouteTtl : Int := 120 * 1000000000

def minReportRemaining : Int := 30 * 1000000000

/-- The rows that a candidate is joined from. -/
structure RouteCandidate where
  published : PublishedInstance
  node : TrustNode
  report : AttestationReport
  challenge : AttestationChallenge

def routeCandidate (db : TrustDb) (modelInstanceId : Uuid) : Option RouteCandidate := do
  let published ← db.instances.find modelInstanceId
  let node ← db.nodes.find published.nodeId
  let report ← node.attestationReportId.bind db.reports.find
  let challenge ← db.challenges.find report.challengeId
  return ⟨published, node, report, challenge⟩

/-- The conditions of the query on the trust of a candidate. -/
def RouteCandidate.Eligible (self : RouteCandidate) (now : OffsetDateTime) : Prop :=
  self.published.status = .published ∧ self.report.nodeId = self.node.id ∧
    self.report.modelInstanceId = self.published.id ∧
    self.report.modelHash = self.published.weightsHash ∧ self.node.trustLevel = .enhanced ∧
    (∃ expiry ∈ self.node.trustExpiresAt,
      now.unixTimestampNanos + minReportRemaining < expiry.unixTimestampNanos) ∧
    self.report.status = .verified ∧ self.report.keyOrigin = .teeRuntime ∧
    now.unixTimestampNanos + minReportRemaining < self.report.expiresAt.unixTimestampNanos ∧
    self.report.collateralCurrent = true ∧
    (∃ expiry ∈ self.report.collateralExpiresAt,
      now.unixTimestampNanos + minReportRemaining < expiry.unixTimestampNanos) ∧
    self.report.signatureVerified = true ∧ self.report.certificateChainVerified = true ∧
    self.report.tcbCurrent = true

instance (candidate : RouteCandidate) (now : OffsetDateTime) :
    Decidable (candidate.Eligible now) := inferInstanceAs (Decidable (_ ∧ _))

/-- What the rest of the database says for a request: the instances that the query orders,
each with the outcome of the check of its capacity and policy, whether the selected one is
quarantined, and until when its billing profile is valid. -/
structure RouteChoice where
  candidates : List (Uuid × Bool)
  quarantined : Bool
  validUntil : ApiResult OffsetDateTime

/-- A node is checked once more under its lock. -/
def RouteCandidate.stillTrusted (self : RouteCandidate) (now : OffsetDateTime) : Bool :=
  decide (self.node.trustLevel = .enhanced) && self.node.trustExpiresAt.any fun expiry =>
    decide (now.unixTimestampNanos + minReportRemaining < expiry.unixTimestampNanos)

def RouteChoice.select (self : RouteChoice) (db : TrustDb) (now : OffsetDateTime) :
    Option RouteCandidate :=
  self.candidates.findSome? fun (modelInstanceId, hasRoom) =>
    (routeCandidate db modelInstanceId).filter fun candidate =>
      decide (candidate.Eligible db.now) && hasRoom && candidate.stillTrusted now

def validateSelectedReport (report : AttestationReport) (now : OffsetDateTime) :
    ApiResult Unit := do
  let verifiedAt ← okOr (attestationUnavailable "硬件报告缺少验证时间") report.verifiedAt
  rejectIf (report.evidenceBase64 = "" ∨
      verifiedAt.unixTimestampNanos < report.issuedAt.unixTimestampNanos ∨
      now.unixTimestampNanos + 30 * 1000000000 < verifiedAt.unixTimestampNanos ∨
      report.teeMeasurement = none)
    (attestationUnavailable "硬件报告结构或验证时间无效")

def responseFromSelected (route : PreparedRoute) (report : AttestationReport)
    (challenge : AttestationChallenge) (idempotentReplay : Bool) :
    ApiResult PrepareRegulatedJobResponse := do
  rejectIf (report.provider = .none) .internal
  let teeMeasurement ← okOr .internal report.teeMeasurement
  let verifiedAt ← okOr .internal report.verifiedAt
  let collateralExpiresAt ← okOr .internal report.collateralExpiresAt
  return {
    routeId := route.id
    modelId := route.modelId
    modelInstanceId := route.modelInstanceId
    nodeId := route.nodeId
    expiresAt := route.expiresAt
    idempotentReplay
    attestation := {
      reportId := report.id
      challengeId := report.challengeId
      nodeId := route.nodeId
      modelInstanceId := route.modelInstanceId
      provider := report.provider
      evidenceKind := report.evidenceKind
      evidence := report.evidenceBase64
      evidenceSha256 := report.evidenceSha256
      challengeNonce := String.ofList (Base64.encode Base64.urlSafe challenge.nonce.toList)
      reportData := report.reportData
      teeMeasurement
      sandboxPolicyHash := report.policyHash
      runtimeBinaryHash := report.runtimeHash
      modelWeightsHash := report.modelHash
      ephemeralPublicKey := report.ephemeralPublicKey
      issuedAt := report.issuedAt
      verifiedAt
      expiresAt := report.expiresAt
      collateralExpiresAt } }

def expireRoute (now : OffsetDateTime) (userId : Uuid) (row : PreparedRoute) : PreparedRoute :=
  if row.userId = userId ∧ row.status = .prepared ∧
      row.expiresAt.unixTimestampNanos ≤ now.unixTimestampNanos then
    { row with status := .expired }
  else row

theorem expireRoute_id (now : OffsetDateTime) (userId : Uuid) (row : PreparedRoute) :
    (expireRoute now userId row).id = row.id := by
  unfold expireRoute
  split <;> rfl

def routeReplay : ApiError :=
  .conflict "regulated_route_replay" "Regulated prepared route 已消费或过期"

def loadRouteResponse (db : TrustDb) (route : PreparedRoute) (idempotentReplay : Bool) :
    ApiResult PrepareRegulatedJobResponse := do
  rejectIf (route.status ≠ .prepared ∨
    route.expiresAt.unixTimestampNanos ≤ db.now.unixTimestampNanos) routeReplay
  let report ← okOr routeReplay (db.reports.find route.attestationReportId)
  let challenge ← okOr routeReplay (db.challenges.find report.challengeId)
  responseFromSelected route report challenge idempotentReplay

/-- How long a route from a report may be used. -/
def routeExpiresAt (report : AttestationReport) (choice : RouteChoice) (now : OffsetDateTime) :
    ApiResult OffsetDateTime := do
  let validUntil ← choice.validUntil
  let collateralExpiresAt ← okOr .internal report.collateralExpiresAt
  let ttl ← after now preparedRouteTtl
  let attestationExpiresAt := earlier (earlier ttl report.expiresAt) collateralExpiresAt
  rejectIf (attestationExpiresAt.unixTimestampNanos ≤ now.unixTimestampNanos + minReportRemaining)
    (attestationUnavailable "可用硬件报告剩余时间不足以安全创建 Regulated 任务")
  let expiresAt := earlier attestationExpiresAt validUntil
  rejectIf (expiresAt.unixTimestampNanos ≤ now.unixTimestampNanos + minReportRemaining)
    billingProfileUnavailable
  return expiresAt

def prepareRegulatedJob (db : RouteDb) (principal : Principal) (request : PrepareRequest)
    (routeId : Uuid) (now : OffsetDateTime) (choice : RouteChoice) :
    ApiResult (Table PreparedRoute.id × PrepareRegulatedJobResponse) :=
  let routes := db.routes.mapRows (expireRoute db.trust.now principal.userId)
    (expireRoute_id db.trust.now principal.userId)
  match routes.rows.find? fun route =>
    decide (route.userId = principal.userId) && route.idempotencyKey == request.idempotencyKey with
  | some existing => do
      rejectIf (existing.prepareRequestFingerprint ≠ request.fingerprint)
        (.conflict "idempotency_binding_mismatch" "Regulated prepare 幂等键已绑定到不同请求内容")
      rejectIf (existing.status ≠ .prepared) (.conflict "regulated_route_replay"
        "该 Regulated prepare 幂等键已消费或过期，不能生成第二个 envelope")
      let response ← loadRouteResponse db.trust existing true
      return (routes, response)
  | none => do
      let selected ← okOr (attestationUnavailable
          "没有具备未过期本机可复验硬件报告与 TEE runtime 密钥的 Regulated 节点")
        (choice.select db.trust now)
      rejectIf (choice.quarantined = true) (attestationUnavailable
        "候选模型实例在 Regulated route 提交前被 canary 风控隔离，请重试路由")
      validateSelectedReport selected.report now
      let expiresAt ← routeExpiresAt selected.report choice now
      let route := {
        id := routeId
        userId := principal.userId
        idempotencyKey := request.idempotencyKey
        prepareRequestFingerprint := request.fingerprint
        modelId := selected.published.modelId
        modelInstanceId := selected.published.id
        nodeId := selected.node.id
        attestationReportId := selected.report.id
        status := .prepared
        expiresAt : PreparedRoute }
      rejectIf (routes.find routeId ≠ none ∨
        expiresAt.unixTimestampNanos ≤ db.trust.now.unixTimestampNanos) .internal
      let response ← responseFromSelected route selected.report selected.challenge false
      return (routes.set route, response)

end Preparing

section Runs
variable (env : AttestationServices)

inductive RouteAction where
  | trust (action : TrustAction)
  | prepare (principal : Principal) (request : PrepareRequest) (routeId : Uuid)
      (now : OffsetDateTime) (choice : RouteChoice)
  /-- The update of `create_regulated_job`. -/
  | consume (routeId : Uuid)

def performRoute (db : RouteDb) : RouteAction → RouteDb
  | .trust action => { db with trust := performTrust env db.trust action }
  | .prepare principal request routeId now choice =>
      match prepareRegulatedJob db principal request routeId now choice with
      | .ok (routes, response) => { db with routes, answered := response :: db.answered }
      | .error _ => db
  | .consume routeId =>
      match db.routes.find routeId with
      | some route =>
          if route.status = .prepared ∧
              db.trust.now.unixTimestampNanos < route.expiresAt.unixTimestampNanos then
            { db with routes := db.routes.set { route with status := .consumed } }
          else db
      | none => db

/-- Some actions in a row. -/
def performRoutes (actions : List RouteAction) (db : RouteDb) : RouteDb :=
  actions.foldl (performRoute env) db

/-- The actions on the trust of nodes. -/
def trustActions (actions : List RouteAction) : List TrustAction :=
  actions.filterMap fun action =>
    match action with
    | .trust action => some action
    | _ => none

end Runs

end MindOne.Attestation

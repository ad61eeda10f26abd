import MindOne.Coordinator.Releases

/-!
# Nodes and the work they may take

A claim and a renewal lock the row of their node before anything else. Whether
the node may hold one more lease is decided from its policy, its newest metrics
and the number of its unexpired leases, over jobs and challenges together.
-/

namespace MindOne.Coordinator

open CheckedArithmetic Accounting Database KeyedTable

/-- The rows of a node that a transaction has locked. -/
structure LockedNode where
  node : Node
  policy : NodePolicyRow

def lockNode (db : Db) (nodeId : Uuid) : ApiResult LockedNode :=
  match db.workers.nodes.find nodeId, db.workers.nodePolicies.find nodeId with
  | some node, some policy => .ok ⟨node, policy⟩
  | _, _ => .error (.notFound "节点")

theorem lockNode_eq_ok {db : Db} {nodeId : Uuid} {locked : LockedNode} :
    lockNode db nodeId = .ok locked ↔ db.workers.nodes.find nodeId = some locked.node ∧
      db.workers.nodePolicies.find nodeId = some locked.policy := by
  obtain ⟨node, policy⟩ := locked
  unfold lockNode
  cases db.workers.nodes.find nodeId <;> cases db.workers.nodePolicies.find nodeId <;> simp

def requireNodeDeviceBinding (principal : Principal) (node : Node) : ApiResult Unit :=
  rejectIf (node.userId ≠ principal.userId ∨ node.deviceKeyId ≠ some principal.deviceKeyId)
    (.forbidden "当前设备无权操作此节点")

def exactClaimDeviceBinding (principal : Principal) (claimedUserId claimedDeviceKeyId : Option Uuid)
    (bindingVersion : Option Int) : Prop :=
  claimedUserId = some principal.userId ∧ claimedDeviceKeyId = some principal.deviceKeyId ∧
    bindingVersion = some deviceBindingVersion

instance (principal : Principal) (claimedUserId claimedDeviceKeyId : Option Uuid)
    (bindingVersion : Option Int) :
    Decidable (exactClaimDeviceBinding principal claimedUserId claimedDeviceKeyId
      bindingVersion) := inferInstanceAs (Decidable (_ ∧ _))

/-- An attempt binds its node's owner to the device that claimed it. -/
def JobAttempt.BoundTo (attempt : JobAttempt) (principal : Principal) (ownerId : Uuid) : Prop :=
  exactClaimDeviceBinding principal (some ownerId) (some attempt.claimDeviceKeyId)
    (some attempt.claimDeviceBindingVersion)

instance (attempt : JobAttempt) (principal : Principal) (ownerId : Uuid) :
    Decidable (attempt.BoundTo principal ownerId) :=
  inferInstanceAs (Decidable (exactClaimDeviceBinding _ _ _ _))

theorem JobAttempt.boundTo_iff {attempt : JobAttempt} {principal : Principal} {ownerId : Uuid} :
    attempt.BoundTo principal ownerId ↔
      ownerId = principal.userId ∧ attempt.claimDeviceKeyId = principal.deviceKeyId := by
  simp [BoundTo, exactClaimDeviceBinding, attempt.claimDeviceBinding]

/-- An unexpired lease of a job by the node. -/
def Job.LeasedBy (job : Job) (nodeId : Uuid) (now : Int) : Prop :=
  job.leasedToNodeId = some nodeId ∧ job.status = .leased ∧ job.LeaseValid now

instance (job : Job) (nodeId : Uuid) (now : Int) : Decidable (job.LeasedBy nodeId now) :=
  inferInstanceAs (Decidable (_ ∧ _))

/-- An unexpired lease of a challenge by the node. -/
def EvaluationChallenge.LeasedBy (challenge : EvaluationChallenge) (nodeId : Uuid)
    (now : Int) : Prop :=
  challenge.nodeId = nodeId ∧ challenge.status = .leased ∧ now < challenge.leaseExpiresAt

instance (challenge : EvaluationChallenge) (nodeId : Uuid) (now : Int) :
    Decidable (challenge.LeasedBy nodeId now) := inferInstanceAs (Decidable (_ ∧ _))

/-- The unexpired leases of a node, without those of one work item. -/
def activeCount (jobs : List Job) (challenges : List EvaluationChallenge) (nodeId : Uuid)
    (now : Int) (excluded : Option Uuid) : Nat :=
  (jobs.countP fun job => job.LeasedBy nodeId now ∧ excluded ≠ some job.id) +
    challenges.countP fun challenge =>
      challenge.LeasedBy nodeId now ∧ excluded ≠ some challenge.id

def Db.activeCount (db : Db) (nodeId : Uuid) (excluded : Option Uuid) : Nat :=
  Coordinator.activeCount db.jobs.rows db.workers.challenges.rows nodeId db.now excluded

section Policy
variable (env : Services)

/-- The `Debug` text of a metric. -/
def metricText : ResourceMetric → String
  | .gpuTemperature => "GpuTemperature"
  | .availableVram => "AvailableVram"

/-- The `Debug` text of a rejection. -/
def rejectionText : PolicyRejection → String
  | .rejectedTag tag => "RejectedTag \x7b tag: " ++ env.debugText tag ++ " \x7d"
  | .maximumConcurrency current maximum =>
      "MaximumConcurrency \x7b current: " ++ toString current ++ ", maximum: " ++ toString maximum ++
        " \x7d"
  | .insufficientVram availableMib reservedMib =>
      "InsufficientVram \x7b available_mib: " ++ toString availableMib ++ ", reserved_mib: " ++
        toString reservedMib ++ " \x7d"
  | .metricUnavailable metric => "MetricUnavailable \x7b metric: " ++ metricText metric ++ " \x7d"
  | .invalidMetric metric => "InvalidMetric \x7b metric: " ++ metricText metric ++ " \x7d"

/-- `u64::try_from(total.saturating_sub(used)).ok()`. -/
def availableVramMib (metrics : Option NodeMetrics) : Option Nat := do
  let used ← metrics.bind NodeMetrics.vramUsedMib
  let total ← metrics.bind NodeMetrics.vramTotalMib
  let available := saturatingSubI64 total used
  if 0 ≤ available then some available.toNat else none

def enforceCurrentPolicy (db : Db) (locked : LockedNode) (excludedJobId : Option Uuid)
    (taskTags : List String) : ApiResult Unit := do
  let metrics := db.workers.nodeMetrics.find locked.node.id
  let decision ← orInternal (evaluatePolicy
    { rejectTags := locked.policy.rejectTags
      maxConcurrent := locked.policy.maxConcurrent
      gpuTempLimitC := locked.policy.gpuTempLimitC
      vramReserveMib := locked.policy.vramReserveMib
      resumeTempHysteresisC := 5 }
    { taskTags
      currentConcurrent := db.activeCount locked.node.id excludedJobId
      gpuTempC := metrics.bind NodeMetrics.gpuTempC
      availableVramMib := availableVramMib metrics
      pausedForTemperature := false })
  match decision with
  | .accept _ => .ok ()
  | .pauseTemperature _ _ => .error (.policyRejected "GPU 温度达到节点阈值")
  | .reject reason => .error (.policyRejected ("节点策略拒绝：" ++ rejectionText env reason))

/-- A node that passes has a free slot. -/
theorem enforceCurrentPolicy_ok {db : Db} {locked : LockedNode} {excludedJobId : Option Uuid}
    {taskTags : List String} {u : Unit}
    (h : enforceCurrentPolicy env db locked excludedJobId taskTags = .ok u) :
    db.activeCount locked.node.id excludedJobId < locked.policy.maxConcurrent := by
  simp only [enforceCurrentPolicy, bind_eq_ok, orInternal_eq_ok] at h
  obtain ⟨decision, hdecision, h⟩ := h
  cases decision with
  | accept resumed => exact evaluatePolicy_accept hdecision
  | pauseTemperature _ _ => cases h
  | reject _ => cases h

end Policy

inductive WorkItemKind where
  | ordinary | hidden | missing
  deriving DecidableEq, Repr

/-- An identifier is either a job's or a challenge's. -/
def workItemKind (db : Db) (id : Uuid) : ApiResult WorkItemKind :=
  match db.jobs.find id, db.workers.challenges.find id with
  | some _, none => .ok .ordinary
  | none, some _ => .ok .hidden
  | none, none => .ok .missing
  | some _, some _ => .error .internal

end MindOne.Coordinator

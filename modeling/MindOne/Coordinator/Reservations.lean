import MindOne.Coordinator.Runs

/-!
# Reservations over whole runs

What is reserved on an account is always the sum over the live jobs of its
user. A job takes its reservation when it is created, keeps it through every
lease and retry, and gives it back in the one step that ends it.
-/

namespace MindOne.Coordinator

open CheckedArithmetic Accounting Database KeyedTable

/-- What a job contributes to the reservation of a user. -/
def Job.holds (userId : Uuid) (job : Job) : Int :=
  if job.userId = userId ∧ job.status.Live then job.reservedCostMicro else 0

/-- The reservations of the live jobs of a user. -/
def Db.liveReservation (db : Db) (userId : Uuid) : Int := db.jobs.sum (Job.holds userId)

/-- Every account reserves what the live jobs of its user hold. -/
def Db.Reserves (db : Db) : Prop :=
  ∀ userId, db.ledger.reservedOf userId = db.liveReservation userId

section Steps
variable {env : Services} {lost : Prop} {db after : Db} {flow : Int} {life : Life} {job : Job}

theorem Job.holds_of_live {userId : Uuid} (live : job.status.Live) :
    job.holds userId = if userId = job.userId then job.reservedCostMicro else 0 := by
  simp only [Job.holds, live, and_true, eq_comm (a := userId)]

theorem Job.holds_of_not_live {userId : Uuid} (ended : ¬ job.status.Live) :
    job.holds userId = 0 := by
  simp only [Job.holds, ended, and_false, if_false]

/-- One job is written: what its user has reserved changes by the difference. -/
theorem Follows.liveReservation (follows : Follows db life after)
    (found : db.jobs.find job.id = some job) (hid : life.job.id = job.id) (userId : Uuid) :
    after.liveReservation userId =
      db.liveReservation userId - job.holds userId + life.job.holds userId := by
  rw [Db.liveReservation, follows.jobs]
  rw [← hid] at found
  exact Table.sum_set_of_find found _

theorem Transition.reserves (t : Transition env lost db flow after) (h : db.Reserves) :
    after.Reserves := by
  intro userId
  cases t with
  | quiet quiet =>
      rw [quiet.ledger, Db.liveReservation, quiet.jobs]
      exact h userId
  | opened fresh => exact (LedgerDb.reservedOf_openAccount fresh userId).trans (h userId)
  | credited inserted => exact (inserted.reservedOf userId).trans (h userId)
  | withdrawn inserted => exact (inserted.reservedOf userId).trans (h userId)
  | @created job _ fresh new reserved follows =>
      have hlive : job.status.Live := .inl new.status
      have hsum : after.liveReservation userId = db.liveReservation userId + job.holds userId := by
        rw [Db.liveReservation, follows.jobs]
        exact Table.sum_set_of_none fresh _
      rw [reserved.reservedOf, hsum, h userId, Job.holds_of_live hlive]
  | @kept job _ _ found step follows ledger =>
      have frozen := (Life.Step.kept step).frozen
      have hbefore : job.status.Live := step.live.1
      rw [ledger, follows.liveReservation found frozen.id, h userId,
        Job.holds_of_live hbefore, Job.holds_of_live step.live.2, frozen.userId,
        frozen.reservedCostMicro]
      exact (sub_add_cancel _ _).symm
  | @ended job _ _ found step follows released =>
      have frozen := (Life.Step.ended step : Life.Step lost db.now _ _).frozen
      have hbefore : job.status.Live := step.live.1
      rw [released.reservedOf, follows.liveReservation found frozen.id, h userId,
        Job.holds_of_live hbefore, Job.holds_of_not_live step.live.2]
      split <;> omega
  | @settled job _ _ _ found step follows paid =>
      have frozen := (Life.Step.settled step : Life.Step lost db.now _ _).frozen
      have hbefore : job.status.Live := step.live.1
      rw [paid.reservedOf, follows.liveReservation found frozen.id, h userId,
        Job.holds_of_live hbefore, Job.holds_of_not_live step.live.2]
      split <;> omega

theorem Db.initial_reserves : Db.initial.Reserves := fun _ => rfl

end Steps

/-- In every state of every run each account has reserved exactly what the queued,
retried and leased jobs of its user hold, and no more than it can spend. -/
theorem reservations_match_live_jobs {env : Services} {allowed : Action → Db → Prop} {db : Db}
    (h : Reachable env allowed db) :
    (∀ userId, db.ledger.reservedOf userId = db.liveReservation userId) ∧
      ∀ account ∈ db.ledger.accounts.rows,
        account.reservedMicro = db.liveReservation account.userId ∧
        0 ≤ account.reservedMicro ∧ account.reservedMicro ≤ account.spendableMicro := by
  have reserves : db.Reserves := h.invariant Db.initial_reserves Transition.reserves
  refine ⟨reserves, fun account hmem => ?_⟩
  have hfind := Table.find_of_mem hmem
  obtain ⟨checked, -⟩ := h.consistent.account hfind
  obtain ⟨-, hnonneg, -, hle, -⟩ := QuotaAccount.check_eq_ok.mp checked
  refine ⟨?_, hnonneg, hle⟩
  rw [← reserves account.userId, LedgerDb.reservedOf, hfind]
  rfl

/-- The account of a live job still reserves what the job holds. -/
theorem Reachable.account_holds {env : Services} {allowed : Action → Db → Prop} {db : Db}
    {job : Job} (h : Reachable env allowed db) (hmem : job ∈ db.jobs.rows)
    (live : job.status.Live) :
    ∃ account, account.userId = job.userId ∧
      db.ledger.accounts.find account.userId = some account ∧
      0 < job.reservedCostMicro ∧ job.reservedCostMicro ≤ account.reservedMicro := by
  have reserves : db.Reserves := h.invariant Db.initial_reserves Transition.reserves
  have hpositive : 0 < job.reservedCostMicro := (h.admitted job hmem).reserved
  have hle : job.reservedCostMicro ≤ db.ledger.reservedOf job.userId := by
    have hholds : job.holds job.userId = job.reservedCostMicro := by
      rw [Job.holds_of_live live, if_pos rfl]
    rw [reserves job.userId, ← hholds]
    refine Table.le_sum (fun other hother => ?_) hmem
    have hother' := (h.admitted other hother).reserved
    unfold Job.holds
    split <;> omega
  cases haccount : db.ledger.accounts.find job.userId with
  | none =>
      simp only [LedgerDb.reservedOf, haccount, Option.elim_none] at hle
      omega
  | some account =>
      simp only [LedgerDb.reservedOf, haccount, Option.elim_some] at hle
      have hid : account.userId = job.userId := Table.key_of_find haccount
      exact ⟨account, hid, hid ▸ haccount, hpositive, hle⟩

section Sample

/-- Services that accept everything. -/
def sampleServices : Services where
  digest := fun _ => "9f86d081884c7d659a2feaa0c55ad015a3bf4f1b2b0b822cd15d6c15b0f00a08"
  maxJobRetries := 1
  leaseDuration := 60000000
  evaluationInstanceCooldown := 0
  validateCreateJob := fun _ => .ok ⟨"request-fingerprint", false⟩
  validateRegulatedJob := fun _ => .ok "request-fingerprint"
  assessJobCreation := fun _ _ _ => .ok ()
  parseSpeedQualifiedModel := fun name => .ok ⟨name, .slow⟩
  selectModel := fun db _ _ => do
    let model ← fetchOne db.workers.models.rows.head?
    return ⟨model.id, model.weightsHash⟩
  checkReservedCapacityAndPolicy := fun _ _ => .ok true
  encryptForStorage := fun _ _ text => .ok text
  decryptFromStorage := fun _ _ text => .ok text
  lower := String.toLower
  debugText := id
  prioritize := fun _ _ instances => instances
  prioritize_perm := fun _ _ _ => .rfl
  canarySignal := fun db _ _ => db.workers.quarantined
  authorizeTerminal := fun _ => .ok ()
  failureRequestHash := fun request => request.idempotencyKey
  resultRequestHash := fun request => request.idempotencyKey
  validateJobResult := fun _ _ _ => .ok ()
  validateFailureReport := fun _ => .ok ()
  submittedAnswerMatches := fun _ _ _ => .ok true
  telemetryFingerprint := fun _ _ command => .ok command.executionTelemetry
  appendExecutionFingerprint := fun _ _ _ => .ok ()
  validateRegulatedResultBinding := fun _ _ _ => .ok ()
  precreateWeight := fun _ _ => some 1000000
  settlementContributionWeight := fun _ _ _ => .ok 1000000
  billingSnapshotHash := fun _ => .ok "snapshot"
  recordSettledEdge := fun _ _ _ => .ok ()
  grantFingerprint := fun request => request.idempotencyKey
  releaseFingerprint := fun command => command.idempotencyKey

def sampleUser : Uuid := .fromU128 100
def sampleConsumer : Principal := ⟨sampleUser, .fromU128 101⟩
def sampleModel : Model := ⟨.fromU128 1, "weights", .medium, true⟩

def sampleBillingProfile : BillingProfileSnapshot where
  contractVersion := serverReferenceUpperBoundV1
  profileId := .fromU128 2
  profileVersion := 1
  modelId := .fromU128 1
  profileFingerprint := "profile"
  modelWeightsHash := "weights"
  referenceHardwareClass := "reference"
  evidenceHash := "evidence"
  validFrom := 0
  validUntil := 1000000000000
  profile := sampleProfile

def sampleWorker : Principal := ⟨.fromU128 200, .fromU128 201⟩

/-- A node that was last seen at an instant. -/
def sampleNode (seen : Int) : Node where
  id := .fromU128 20
  userId := sampleWorker.userId
  deviceKeyId := some sampleWorker.deviceKeyId
  status := .online
  trustLevel := .standard
  lastSeenAt := some seen
  attestationReportId := none
  trustExpiresAt := none

def samplePolicy : NodePolicyRow := ⟨.fromU128 20, [], 1, none, 0⟩

def sampleInstance : ModelInstance := ⟨.fromU128 21, .fromU128 1, .fromU128 20, .published⟩

/-- One node with one published model. -/
def sampleWorkers (seen : Int) : Workers :=
  { Workers.empty with
    models := Table.empty.set sampleModel
    billingProfiles := Table.empty.set sampleBillingProfile
    nodes := Table.empty.set (sampleNode seen)
    nodePolicies := Table.empty.set samplePolicy
    modelInstances := Table.empty.set sampleInstance }

def sampleCreate : Action := .createStandard sampleConsumer
  ⟨"model", "payload", [], 40, 10, "create-1", 0⟩ (.fromU128 7)

def sampleEpoch : OffsetDateTime := ⟨0, by decide⟩

/-- A model is published, a user logs in with a development grant and creates a job. -/
def sampleActions : List Action :=
  [.report (sampleWorkers 0), .bootstrap sampleUser "github" 1000000 ⟨.fromU128 5, sampleEpoch⟩,
    sampleCreate]

theorem reservations_match_live_jobs_sample :
    ∃ db, Reachable sampleServices Unrestricted db ∧
      db.liveReservation sampleUser = 82800 ∧ db.ledger.reservedOf sampleUser = 82800 := by
  have hreachable : Reachable sampleServices Unrestricted
      (performAll sampleServices sampleActions Db.initial) := .performAll .initial _
  have hlive : (performAll sampleServices sampleActions Db.initial).liveReservation sampleUser =
      82800 := by decide +kernel
  obtain ⟨hreserved, -⟩ := reservations_match_live_jobs hreachable
  exact ⟨_, hreachable, hlive, (hreserved sampleUser).trans hlive⟩

end Sample

end MindOne.Coordinator

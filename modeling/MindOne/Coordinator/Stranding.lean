import MindOne.Coordinator.Attempts
import MindOne.Coordinator.Reapers
import Mathlib.Data.Finset.Lattice.Fold
import Mathlib.Order.Bounds.Basic

/-!
# Stranded reservations

A live job holds its reservation until it is claimed and settled or until a reaper ends
it. When no worker reports any more and everything has expired, a standard job can still
be claimed, and an exhausted lease is reaped. A regulated job can be claimed no more. One
that waits is met by the reaper that cannot end it, and this takes every claim with it;
one that is leased with attempts left is met by no reaper at all.
-/

namespace MindOne.Coordinator

open CheckedArithmetic Accounting Database KeyedTable

/-- The worker tables when nodes are back: rows stay, and no report is renewed. -/
structure Workers.Later (before after : Workers) : Prop where
  keeps : before.Keeps after
  attestationReports : after.attestationReports = before.attestationReports

/-- All leases, reports and routes have run out, and all pauses are over. -/
structure Db.Elapsed (db : Db) : Prop where
  leases : ∀ job ∈ db.jobs.rows, ∀ expiry ∈ job.leaseExpiresAt, expiry ≤ db.now
  pauses : ∀ job ∈ db.jobs.rows, job.availableAt ≤ db.now
  reports : ∀ report ∈ db.workers.attestationReports.rows, report.expiresAt ≤ db.now
  routes : ∀ route ∈ db.workers.routes.rows, route.expiresAt ≤ db.now
  challenges : ∀ challenge ∈ db.workers.challenges.rows, challenge.leaseExpiresAt ≤ db.now

section Elapsed

theorem exists_forall_le {α : Type} (l : List α) (f : α → Int) : ∃ bound, ∀ a ∈ l, f a ≤ bound := by
  induction l with
  | nil => exact ⟨0, fun _ h => nomatch h⟩
  | cons a rest ih =>
      obtain ⟨bound, hbound⟩ := ih
      refine ⟨max (f a) bound, List.forall_mem_cons.mpr ⟨le_max_left _ _, fun b hb => ?_⟩⟩
      exact (hbound b hb).trans (le_max_right _ _)

/-- A time comes at which everything has run out. -/
theorem exists_elapsed (db : Db) :
    ∃ start, ∀ now, start ≤ now → Db.Elapsed { db with now } := by
  obtain ⟨leases, hleases⟩ := exists_forall_le db.jobs.rows fun job => job.leaseExpiresAt.getD 0
  obtain ⟨pauses, hpauses⟩ := exists_forall_le db.jobs.rows Job.availableAt
  obtain ⟨reports, hreports⟩ := exists_forall_le db.workers.attestationReports.rows
    AttestationReport.expiresAt
  obtain ⟨routes, hroutes⟩ := exists_forall_le db.workers.routes.rows RegulatedRoute.expiresAt
  obtain ⟨challenges, hchallenges⟩ := exists_forall_le db.workers.challenges.rows
    EvaluationChallenge.leaseExpiresAt
  refine ⟨max leases (max pauses (max reports (max routes challenges))), fun now hnow => ?_⟩
  simp only [max_le_iff] at hnow
  obtain ⟨h1, h2, h3, h4, h5⟩ := hnow
  refine ⟨fun job hjob expiry hexpiry => ?_, fun job hjob => (hpauses job hjob).trans h2,
    fun report hreport => (hreports report hreport).trans h3,
    fun route hroute => (hroutes route hroute).trans h4,
    fun challenge hchallenge => (hchallenges challenge hchallenge).trans h5⟩
  have hlease := hleases job hjob
  rw [Option.mem_def.mp hexpiry] at hlease
  exact hlease.trans h1

end Elapsed

/-- Some call of `claim_job` leases the job to its node, while no other transaction
holds a regulated job that waits. -/
def Claimable (env : Services) (db : Db) (job : Job) : Prop :=
  ∃ workers principal request context after response,
    db.workers.Later workers ∧ (∀ id, context.lockedInvalid id = false) ∧
    claimJob env { db with workers } principal request context = .ok (after, .job response) ∧
    response.jobId = job.id ∧
    (job.confidentialityMode = .regulated → some request.nodeId = job.regulatedNodeId)

/-- Both reapers, as a claim and a look at a job start. -/
def reapers (locked : Uuid → Bool) (db : Db) : ApiResult Db := do
  let reaped ← reapExpiredTerminalLeases locked db
  reapInvalidRegulatedJobs (fun _ => false) reaped

/-- A run of the reapers ends the job and gives its reservation back. -/
def Reapable (db : Db) (job : Job) : Prop :=
  ∃ locked after ended, reapers locked db = .ok after ∧
    after.jobs.find job.id = some ended ∧ ¬ended.status.Live ∧
    after.ledger.reservedOf job.userId =
      db.ledger.reservedOf job.userId - job.reservedCostMicro

section Blocked
variable {env : Services} {db reaped after : Db} {job other : Job}

/-- A regulated job that waits for a report that has run out stops both reapers. -/
theorem reapInvalid_after_reapExpired (hadmitted : db.Admitted env)
    (hreports : ∀ report ∈ db.workers.attestationReports.rows, report.expiresAt ≤ db.now)
    (hmem : other ∈ db.jobs.rows) (hwaits : other.WaitsRegulated) {locked free : Uuid → Bool}
    (hfree : ∀ id, free id = false) (hreaped : reapExpiredTerminalLeases locked db = .ok reaped) :
    reapInvalidRegulatedJobs free reaped ≠ .ok after := by
  obtain ⟨hsame, hjobs⟩ := reapExpiredTerminalLeases_find hreaped
  have hleft : ¬other.Exhausted db.now := by
    rintro ⟨hleased, -⟩
    rcases hwaits.2 with hstatus | hstatus
    · rw [hstatus] at hleased
      cases hleased
    · rw [hstatus] at hleased
      cases hleased
  have hstill : other ∈ reaped.jobs.rows :=
    Table.mem_of_find (hjobs other (Table.find_of_mem hmem) hleft)
  have hmoves : Moves env False db 0 reaped := reapExpiredTerminalLeases_moves hreaped
  have hpinned := (hmoves.keeps Transition.admitted hadmitted other hstill).pinned hwaits.1
  refine reapInvalidRegulatedJobs_fails hstill (hwaits.bindingLost hpinned ?_) (hfree _)
  rw [hsame.attestationReports]
  exact fun report hreport => (hreports report hreport).trans hsame.now

theorem Workers.Later.admitted {workers : Workers} (later : db.workers.Later workers)
    (h : db.Admitted env) : Db.Admitted env { db with workers } :=
  fun job hjob => (h job hjob).keeps later.keeps

/-- While a regulated job waits nobody claims anything. -/
theorem not_claimable_of_waiting (hadmitted : db.Admitted env) (elapsed : db.Elapsed)
    (hmem : other ∈ db.jobs.rows) (hwaits : other.WaitsRegulated) : ¬Claimable env db job := by
  rintro ⟨workers, principal, request, context, after, response, later, hfree, hclaim, -⟩
  simp only [claimJob, beginClaim, bind_eq_ok] at hclaim
  obtain ⟨_, ⟨_, -, _, -, _, -, reaped, hreaped, swept, hswept, -⟩, -⟩ := hclaim
  refine reapInvalid_after_reapExpired (later.admitted hadmitted) ?_ hmem hwaits hfree hreaped
    hswept
  rw [later.attestationReports]
  exact elapsed.reports

theorem not_reapable_of_waiting (hadmitted : db.Admitted env) (elapsed : db.Elapsed)
    (hmem : other ∈ db.jobs.rows) (hwaits : other.WaitsRegulated) : ¬Reapable db job := by
  rintro ⟨locked, after, ended, hreapers, -⟩
  obtain ⟨reaped, hreaped, hswept⟩ := bind_eq_ok.mp hreapers
  exact reapInvalid_after_reapExpired hadmitted elapsed.reports hmem hwaits (fun _ => rfl) hreaped
    hswept

/-- A claim that goes through leases a row that awaits it under its own binding. -/
theorem claimJob_job {principal : Principal} {request : ClaimJobRequest} {context : ClaimContext}
    {response : ClaimJobResponse}
    (h : claimJob env db principal request context = .ok (after, .job response)) :
    ∃ reaped offered row, reapExpiredTerminalLeases context.lockedExhausted db = .ok reaped ∧
      SameReports reaped offered ∧ offered.jobs = reaped.jobs ∧
      offered.jobs.find response.jobId = some row ∧ row.OfferedTo env offered request := by
  simp only [claimJob, beginClaim, bind_eq_ok, reapInvalidRegulatedJobs_eq_ok] at h
  obtain ⟨_, ⟨_, -, _, -, _, -, _, hreaped, _, ⟨-, rfl⟩, _, -, ⟨offered, hidden⟩, hhidden,
    hoffered⟩, hclaim⟩ := h
  cases hoffered
  cases hidden with
  | some response =>
      simp only at hclaim
      cases hclaim
  | none =>
      simp only [claimOrdinaryJob] at hclaim
      cases hcandidate : claimCandidate env offered request context.lockedCandidates with
      | none =>
          simp only [hcandidate] at hclaim
          cases hclaim
      | some row =>
          obtain ⟨found, hoffer, -⟩ := claimCandidate_spec hcandidate
          simp only [hcandidate, bind_eq_ok] at hclaim
          obtain ⟨_, -, hclaim⟩ := hclaim
          split at hclaim
          · cases hclaim
          · obtain ⟨⟨leased, answer⟩, hlease, hafter⟩ := bind_eq_ok.mp hclaim
            cases hafter
            simp only [leaseJob, bind_eq_ok] at hlease
            obtain ⟨_, -, _, -, hanswer⟩ := hlease
            cases hanswer
            exact ⟨_, offered, row, hreaped, maybeClaimHiddenJob_sameReports hhidden,
              (maybeClaimHiddenJob_quiet hhidden).jobs, found, hoffer⟩

/-- A regulated job whose report has run out is claimed no more. -/
theorem not_claimable_of_regulated (elapsed : db.Elapsed) (hmem : job ∈ db.jobs.rows)
    (hregulated : job.confidentialityMode = .regulated) (hleft : ¬job.Exhausted db.now) :
    ¬Claimable env db job := by
  rintro ⟨workers, principal, request, context, after, response, later, -, hclaim, hid, -⟩
  obtain ⟨reaped, offered, row, hreaped, hoffered, hjobs, found, hawaits, ⟨mi, hrouted, -⟩, -⟩ :=
    claimJob_job hclaim
  obtain ⟨hsame, hkept⟩ := reapExpiredTerminalLeases_find hreaped
  have hstill : offered.jobs.find job.id = some job := by
    rw [hjobs]
    exact hkept job (Table.find_of_mem hmem) hleft
  rw [hid, hstill, Option.some.injEq] at found
  subst found
  obtain ⟨-, -, -, -, hbinds, -⟩ := routedInstance_spec hrouted
  obtain ⟨-, -, report, hreport, -, -, -, -, -, hvalid, -⟩ := hbinds hregulated
  obtain ⟨reportId, -, hfound⟩ := Option.bind_eq_some_iff.mp hreport
  have hmemReport := Table.mem_of_find hfound
  rw [hoffered.attestationReports, hsame.attestationReports, later.attestationReports] at hmemReport
  have hlapsed := elapsed.reports report hmemReport
  have hnow : db.now ≤ offered.now := hsame.now.trans hoffered.now
  omega

/-- A lease with attempts left is ended by no reaper. -/
theorem not_reapable_of_not_exhausted (hmem : job ∈ db.jobs.rows) (hlive : job.status.Live)
    (hleft : ¬job.Exhausted db.now) : ¬Reapable db job := by
  rintro ⟨locked, after, ended, hreapers, hended, hover, -⟩
  obtain ⟨reaped, hreaped, hswept⟩ := bind_eq_ok.mp hreapers
  obtain ⟨-, rfl⟩ := reapInvalidRegulatedJobs_eq_ok.mp hswept
  obtain ⟨-, hkept⟩ := reapExpiredTerminalLeases_find hreaped
  rw [hkept job (Table.find_of_mem hmem) hleft, Option.some.injEq] at hended
  exact hover (hended ▸ hlive)

end Blocked

/-! ## A node comes back -/

section Revival
variable {env : Services} {db : Db} {job : Job}

def revivedNode (now : Int) : Node where
  id := .fromU128 0
  userId := .fromU128 0
  deviceKeyId := some (.fromU128 0)
  status := .online
  trustLevel := .standard
  lastSeenAt := some now
  attestationReportId := none
  trustExpiresAt := none

def revivedPolicy : NodePolicyRow := ⟨.fromU128 0, [], 1, none, 0⟩

def revivedInstance (job : Job) : ModelInstance := ⟨.fromU128 0, job.modelId, .fromU128 0, .published⟩

/-- One node is back with the only published instance, which runs the model of the job. -/
def Workers.revived (workers : Workers) (job : Job) (now : Int) : Workers :=
  { workers with
    nodes := workers.nodes.set (revivedNode now)
    nodePolicies := workers.nodePolicies.set revivedPolicy
    nodeMetrics := workers.nodeMetrics.set ⟨.fromU128 0, 0, none, none, none, none⟩
    models := workers.models.set ⟨job.modelId, "", .low, true⟩
    modelInstances := (workers.modelInstances.mapRows (fun mi => { mi with status := .unpublished })
      fun _ => rfl).set (revivedInstance job)
    quarantined := fun _ => false }

theorem Workers.revived_later (workers : Workers) (job : Job) (now : Int) :
    workers.Later (workers.revived job now) := by
  refine ⟨⟨keepsKeys_set _ _, keepsKeys_set _ _, ?_, .refl _⟩, rfl⟩
  intro mi hmi
  refine (keepsKeys_set _ _).find ?_
  rw [Table.find_mapRows, Table.find_of_mem hmi]
  rfl

/-- The database in which the revived node claims, after the reapers. -/
def Db.revived (db : Db) (job : Job) : Db :=
  Db.unpublishDrained { db with workers := db.workers.revived job db.now } fun _ => true

theorem drained_of_ne {mi : ModelInstance} (h : mi.status ≠ .draining) : db.drained mi = mi :=
  if_neg fun hdrained => h hdrained.1

theorem revivedInstance_kept (db : Db) : db.drained (revivedInstance job) = revivedInstance job :=
  drained_of_ne (by simp [revivedInstance])

theorem revived_find : (db.revived job).workers.modelInstances.find (revivedInstance job).id =
    some (revivedInstance job) := by
  have hset : (db.workers.revived job db.now).modelInstances.find (revivedInstance job).id =
      some (revivedInstance job) := Table.find_set_self
  rw [Db.revived, Db.unpublishDrained, Table.find_mapRows, hset, Option.map_some, if_pos rfl,
    revivedInstance_kept]

/-- No other instance is published. -/
theorem revived_published {mi : ModelInstance}
    (hmem : mi ∈ (db.revived job).workers.modelInstances.rows) (hpublished : mi.status = .published) :
    mi = revivedInstance job := by
  obtain ⟨old, hold, rfl⟩ := List.mem_map.mp hmem
  rcases Table.mem_set.mp hold with rfl | ⟨hmapped, -⟩
  · exact (if_pos rfl).trans (revivedInstance_kept _)
  · obtain ⟨former, -, rfl⟩ := List.mem_map.mp hmapped
    rw [if_pos rfl, drained_of_ne (by simp)] at hpublished
    cases hpublished

/-- Nothing that has run out loads a node. -/
theorem Db.Elapsed.not_leasedBy (elapsed : db.Elapsed) (hmem : job ∈ db.jobs.rows) (nodeId : Uuid) :
    ¬job.LeasedBy nodeId db.now := by
  rintro ⟨-, -, expiry, hexpiry, hvalid⟩
  have hlapsed := elapsed.leases job hmem expiry hexpiry
  omega

theorem Db.Elapsed.challenges_idle (elapsed : db.Elapsed) (p : EvaluationChallenge → Prop)
    [DecidablePred p] (hp : ∀ challenge, p challenge → db.now < challenge.leaseExpiresAt) :
    (db.workers.challenges.rows.countP fun challenge => p challenge) = 0 := by
  refine List.countP_eq_zero.mpr fun challenge hchallenge hleased => ?_
  have hvalid := hp challenge (of_decide_eq_true hleased)
  have hlapsed := elapsed.challenges challenge hchallenge
  omega

theorem revived_activeCount (elapsed : db.Elapsed) (nodeId : Uuid) (excluded : Option Uuid) :
    (db.revived job).activeCount nodeId excluded = 0 := by
  have hjobs : (db.jobs.rows.countP fun job =>
      job.LeasedBy nodeId db.now ∧ excluded ≠ some job.id) = 0 :=
    List.countP_eq_zero.mpr fun job hjob hleased =>
      elapsed.not_leasedBy hjob nodeId (of_decide_eq_true hleased).1
  have hchallenges := elapsed.challenges_idle
    (fun challenge => challenge.LeasedBy nodeId db.now ∧ excluded ≠ some challenge.id)
    fun challenge h => h.1.2.2
  exact Nat.add_eq_zero_iff.mpr ⟨hjobs, hchallenges⟩

theorem revived_loadCount (elapsed : db.Elapsed) (hidle : ∀ job ∈ db.jobs.rows, ¬job.WaitsRegulated)
    (nodeId : Uuid) : (db.revived job).loadCount job nodeId = 0 := by
  have hjobs : (db.jobs.rows.countP fun active => active.id ≠ job.id ∧
      (active.LeasedBy nodeId db.now ∨ (active.confidentialityMode = .regulated ∧
        active.regulatedNodeId = some nodeId ∧
        (active.status = .queued ∨ active.status = .retry)))) = 0 := by
    refine List.countP_eq_zero.mpr fun active hactive hbound => ?_
    obtain ⟨-, hleased | ⟨hregulated, -, hwaits⟩⟩ := of_decide_eq_true hbound
    · exact elapsed.not_leasedBy hactive nodeId hleased
    · exact hidle active hactive ⟨hregulated, hwaits⟩
  have hroutes : (db.workers.routes.rows.countP fun route =>
      route.nodeId = nodeId ∧ route.status = .prepared ∧ db.now < route.expiresAt) = 0 := by
    refine List.countP_eq_zero.mpr fun route hroute hprepared => ?_
    have hvalid := (of_decide_eq_true hprepared).2.2
    have hlapsed := elapsed.routes route hroute
    omega
  have hchallenges := elapsed.challenges_idle
    (fun challenge => challenge.LeasedBy nodeId db.now) fun challenge h => h.2.2
  exact Nat.add_eq_zero_iff.mpr ⟨Nat.add_eq_zero_iff.mpr ⟨hjobs, hroutes⟩, hchallenges⟩

theorem revived_rows :
    (db.revived job).workers.nodes.find (.fromU128 0) = some (revivedNode db.now) ∧
    (db.revived job).workers.nodePolicies.find (.fromU128 0) = some revivedPolicy ∧
    (db.revived job).workers.nodeMetrics.find (.fromU128 0) =
      some ⟨.fromU128 0, 0, none, none, none, none⟩ ∧
    (db.revived job).workers.models.find job.modelId = some ⟨job.modelId, "", .low, true⟩ :=
  ⟨Table.find_set_self, Table.find_set_self, Table.find_set_self, Table.find_set_self⟩

theorem revived_routable (elapsed : db.Elapsed) (hidle : ∀ job ∈ db.jobs.rows, ¬job.WaitsRegulated)
    (hstandard : job.confidentialityMode = .standard) :
    job.Routable env (db.revived job) (revivedInstance job) := by
  obtain ⟨hnode, hpolicy, hmetrics, -⟩ := @revived_rows db job
  refine ⟨rfl, rfl, rfl, fun hregulated => ?_, revivedNode db.now, hnode, revivedPolicy, hpolicy, ?_⟩
  · rw [hstandard] at hregulated
    cases hregulated
  · rw [show (revivedInstance job).nodeId = .fromU128 0 from rfl, hmetrics]
    refine ⟨rfl, ⟨db.now, rfl, ?_⟩, nofun, nofun, ?_, nofun, .inl rfl⟩
    · show db.now - ninetySeconds < db.now
      rw [ninetySeconds]
      omega
    · have hload := @revived_loadCount db job elapsed hidle (revivedNode db.now).id
      rw [hload]
      cases job.speedClass with
      | fast => rfl
      | standard => rfl
      | slow => exact Nat.zero_lt_one

/-- Routing gives the job to the revived node. -/
theorem revived_routedInstance (elapsed : db.Elapsed)
    (hidle : ∀ job ∈ db.jobs.rows, ¬job.WaitsRegulated)
    (hstandard : job.confidentialityMode = .standard) :
    routedInstance env (db.revived job) job = some (revivedInstance job) := by
  have hroutable := @revived_routable env db job elapsed hidle hstandard
  have hranked {mi : ModelInstance} : mi ∈ ((db.revived job).workers.modelInstances.rows.filter
      fun mi => job.Routable env (db.revived job) mi) ↔ mi = revivedInstance job := by
    rw [List.mem_filter, decide_eq_true_eq]
    constructor
    · rintro ⟨hmem, -, hpublished, -⟩
      exact revived_published hmem hpublished
    · rintro rfl
      exact ⟨Table.mem_of_find revived_find, hroutable⟩
  have hcohort {mi : ModelInstance} :
      mi ∈ nodeCohort env (db.revived job) job ↔ mi = revivedInstance job := by
    rw [nodeCohort, List.mem_filter, hranked, decide_eq_true_eq]
    constructor
    · rintro ⟨hsame, -⟩
      exact hsame
    · rintro rfl
      refine ⟨rfl, fun other hother _ => ?_⟩
      rw [hranked.mp hother]
  have hperm := env.prioritize_perm (db.revived job) job (nodeCohort env (db.revived job) job)
  have hmem : revivedInstance job ∈
      env.prioritize (db.revived job) job (nodeCohort env (db.revived job) job) :=
    hperm.mem_iff.mpr (hcohort.mpr rfl)
  cases hlist : env.prioritize (db.revived job) job (nodeCohort env (db.revived job) job) with
  | nil =>
      rw [hlist] at hmem
      cases hmem
  | cons first rest =>
      have hfirst : first ∈ env.prioritize (db.revived job) job
          (nodeCohort env (db.revived job) job) := by
        rw [hlist]
        exact List.mem_cons_self
      rw [routedInstance, hlist, List.head?_cons, hcohort.mp (hperm.mem_iff.mp hfirst)]

/-- The node is idle and rejects nothing. -/
theorem revived_policy (elapsed : db.Elapsed) (tags : List String) :
    enforceCurrentPolicy env (db.revived job) ⟨revivedNode db.now, revivedPolicy⟩ none tags =
      .ok () := by
  obtain ⟨-, -, hmetrics, -⟩ := @revived_rows db job
  have hcount := @revived_activeCount db job elapsed (revivedNode db.now).id none
  have hrejected : rejectedTag [] tags = none := by
    simp only [rejectedTag, List.map_nil, List.filter_nil, List.mergeSort_nil, List.head?_nil]
  have haccepted : evaluatePolicy ⟨[], 1, none, 0, 5⟩ ⟨tags, 0, none, none, false⟩ =
      .ok (.accept false) := by
    rw [evaluatePolicy, hrejected]
    rfl
  have hrow : (db.revived job).workers.nodeMetrics.find (revivedNode db.now).id =
      some ⟨.fromU128 0, 0, none, none, none, none⟩ := hmetrics
  simp only [enforceCurrentPolicy, hrow, hcount]
  refine bind_eq_ok.mpr ⟨.accept false, orInternal_eq_ok.mpr haccepted, rfl⟩

def revivedPrincipal : Principal := ⟨.fromU128 0, .fromU128 0⟩

def revivedRequest : ClaimJobRequest := ⟨.fromU128 0, .fromU128 0⟩

/-- Other transactions hold the other candidates, and no hidden work is drawn. -/
def revivedContext (job : Job) (nowUtc : Int) : ClaimContext where
  nowUtc
  lockedExhausted := fun _ => true
  lockedInvalid := fun _ => false
  lockedChallenges := fun _ => true
  lockedCandidates := lockedBut job.id
  hidden := none
  recheckQuarantined := false
  recheckInstance := some (revivedInstance job)

theorem revived_beginClaim (elapsed : db.Elapsed)
    (hidle : ∀ job ∈ db.jobs.rows, ¬job.WaitsRegulated) :
    beginClaim env { db with workers := db.workers.revived job db.now } revivedPrincipal
      revivedRequest (revivedContext job db.now) =
      .ok (⟨revivedNode db.now, revivedPolicy⟩, db.revived job, none) := by
  have hlocked : lockNode { db with workers := db.workers.revived job db.now } (.fromU128 0) =
      .ok ⟨revivedNode db.now, revivedPolicy⟩ :=
    lockNode_eq_ok.mpr ⟨Table.find_set_self, Table.find_set_self⟩
  have hreaped : reapExpiredTerminalLeases (fun _ => true)
      { db with workers := db.workers.revived job db.now } = .ok (db.revived job) := by
    rw [reapExpiredTerminalLeases, reapBatch_eq_nil fun _ _ _ => rfl]
    rfl
  have hnone : ∀ other ∈ (db.revived job).jobs.rows, ¬other.WaitsRegulated := hidle
  have hswept := reapInvalidRegulatedJobs_ok hnone fun _ => false
  have hstale : expireStaleChallenges env (db.revived job) (.fromU128 0) (fun _ => true) =
      .ok (db.revived job) := by
    have hheld : ((db.revived job).workers.challenges.rows.filter fun challenge =>
        challenge.nodeId = .fromU128 0 ∧ challenge.LeaseIsExpired (db.revived job).now ∧
          true = false) = [] :=
      List.filter_eq_nil_iff.mpr fun challenge _ hfree => by
        simp at hfree
    rw [expireStaleChallenges, hheld, List.mergeSort_nil]
    rfl
  have hhidden : maybeClaimHiddenJob env (db.revived job) revivedPrincipal (.fromU128 0)
      (.fromU128 0) (fun _ => true) none = .ok (db.revived job, none) := by
    rw [maybeClaimHiddenJob, hstale]
    rfl
  simp only [beginClaim, bind_eq_ok]
  refine ⟨_, hlocked, (), rfl, (), rfl, _, hreaped, _, hswept, (), revived_policy elapsed [], _,
    hhidden, rfl⟩

theorem revived_offered (elapsed : db.Elapsed) (hidle : ∀ job ∈ db.jobs.rows, ¬job.WaitsRegulated)
    (hstandard : job.confidentialityMode = .standard) (hawaits : job.AwaitsClaim db.now) :
    job.OfferedTo env (db.revived job) revivedRequest :=
  ⟨hawaits, ⟨revivedInstance job, revived_routedInstance elapsed hidle hstandard, rfl, rfl⟩,
    _, (@revived_rows db job).2.2.2, rfl⟩

theorem revived_candidate (elapsed : db.Elapsed) (hidle : ∀ job ∈ db.jobs.rows, ¬job.WaitsRegulated)
    (hstandard : job.confidentialityMode = .standard) (hawaits : job.AwaitsClaim db.now)
    (hmem : job ∈ db.jobs.rows) :
    claimCandidate env (db.revived job) revivedRequest (lockedBut job.id) = some job := by
  have hoffered := @revived_offered env db job elapsed hidle hstandard hawaits
  have hfiltered : ((db.revived job).jobs.rows.filter fun row =>
      row.OfferedTo env (db.revived job) revivedRequest ∧ lockedBut job.id row.id = false) = [job] :=
    @filter_lockedBut (db.revived job) job
      (fun row => row.OfferedTo env (db.revived job) revivedRequest) _ hmem hoffered
  rw [claimCandidate, hfiltered, List.mergeSort_singleton]
  rfl

/-- The next attempt of a job that awaits a claim has no row yet. -/
theorem expirePreviousAttempt_fresh (hlife : (db.life job).WellFormed)
    (hawaits : job.AwaitsClaim db.now) :
    (expirePreviousAttempt db job).jobAttempts.find (job.id, saturatingSuccI32 job.attemptCount) =
      none := by
  obtain ⟨jobAttempts, hexpired, hattempts⟩ := expirePreviousAttempt_spec db job
  have hleft : job.attemptCount < job.maxAttempts := hawaits.2.2
  have hmax : job.maxAttempts ≤ maxI32 := hlife.maxAttempts.2
  have hnext : saturatingSuccI32 job.attemptCount = job.attemptCount + 1 := by
    rw [saturatingSuccI32, min_eq_left (by omega)]
  have hnone : (db.life job).attempts (job.attemptCount + 1) = none := by
    rw [← Option.not_isSome_iff_eq_none, hlife.numbered]
    show ¬(1 ≤ job.attemptCount + 1 ∧ job.attemptCount + 1 ≤ job.attemptCount)
    omega
  rw [hexpired, hnext]
  show jobAttempts.find (job.id, job.attemptCount + 1) = none
  rw [hattempts, if_pos rfl, hlife.expireCurrent, Life.endCurrent]
  have hne : job.attemptCount + 1 ≠ (db.life job).job.attemptCount := by
    show job.attemptCount + 1 ≠ job.attemptCount
    omega
  exact (Function.update_of_ne hne _ _).trans hnone

/-- Stored payloads are opened again. -/
def Services.Opens (env : Services) : Prop :=
  ∀ jobId text stored, env.encryptForStorage jobId .payload text = .ok stored →
    ∃ opened, env.decryptFromStorage jobId .payload stored = .ok opened

/-- An attempt that is bound to a device and has no row yet is inserted. -/
theorem insertJobAttempt_ok {new : NewJobAttempt} {deviceKeyId : Uuid}
    (hversion : new.claimDeviceBindingVersion = some deviceBindingVersion)
    (hdevice : new.claimDeviceKeyId = some deviceKeyId)
    (hfresh : db.jobAttempts.find (new.jobId, new.attemptNumber) = none) :
    ∃ after, db.insertJobAttempt new = .ok after := by
  cases hbound : new.checkClaimDeviceBinding with
  | error e =>
      simp only [NewJobAttempt.checkClaimDeviceBinding, hversion, hdevice, dite_true] at hbound
      cases hbound
  | ok attempt =>
      obtain ⟨hkey, -⟩ := checkClaimDeviceBinding_eq_ok hbound
      rw [← hkey] at hfresh
      refine ⟨db.putAttempt attempt, bind_eq_ok.mpr ⟨attempt, orInternal_eq_ok.mpr hbound, ?_⟩⟩
      rw [rejectIf_of_not _ (not_not.mpr hfresh)]
      rfl

theorem leaseJob_ok {principal : Principal} {request : ClaimJobRequest} {nowUtc : Int}
    (opens : env.Opens) (hadmitted : job.Admitted env db.workers)
    (hstandard : job.confidentialityMode = .standard)
    (hfresh : db.jobAttempts.find (job.id, saturatingSuccI32 job.attemptCount) = none) :
    ∃ after response, leaseJob env db principal request job nowUtc = .ok (after, response) ∧
      response.jobId = job.id := by
  obtain ⟨text, hsealed⟩ := hadmitted.sealed hstandard
  obtain ⟨opened, hopened⟩ := opens job.id text job.encryptedPayload hsealed
  have hpayload : claimedPayload env job = .ok opened := by
    rw [claimedPayload, hstandard]
    exact hopened
  let leased := db.putJob { job with
    status := .leased
    leasedToNodeId := some request.nodeId
    modelInstanceId := some request.modelInstanceId
    leaseExpiresAt := some (nowUtc + env.leaseDuration)
    attemptCount := saturatingSuccI32 job.attemptCount }
  obtain ⟨inserted, hinserted⟩ := @insertJobAttempt_ok leased {
    jobId := job.id
    nodeId := request.nodeId
    attemptNumber := saturatingSuccI32 job.attemptCount
    status := .leased
    leaseStartedAt := db.now
    leaseExpiresAt := nowUtc + env.leaseDuration
    finishedAt := none
    errorClass := none
    errorMessage := none
    claimDeviceBindingVersion := some deviceBindingVersion
    claimDeviceKeyId := some principal.deviceKeyId } principal.deviceKeyId rfl rfl hfresh
  refine ⟨inserted, _, bind_eq_ok.mpr ⟨inserted, hinserted,
    bind_eq_ok.mpr ⟨opened, hpayload, rfl⟩⟩, rfl⟩

/-- A standard job that awaits a claim is leased to the revived node. -/
theorem claimable_of_standard (opens : env.Opens) (hadmitted : db.Admitted env)
    (hlives : db.Lives Life.WellFormed) (elapsed : db.Elapsed)
    (hidle : ∀ job ∈ db.jobs.rows, ¬job.WaitsRegulated) (hmem : job ∈ db.jobs.rows)
    (hstandard : job.confidentialityMode = .standard) (hawaits : job.AwaitsClaim db.now) :
    Claimable env db job := by
  have later := db.workers.revived_later job db.now
  have hlife : ((db.revived job).life job).WellFormed := hlives.lives job hmem
  have hfresh := expirePreviousAttempt_fresh hlife hawaits
  have hworkers : (expirePreviousAttempt (db.revived job) job).workers =
      (db.revived job).workers := by
    obtain ⟨jobAttempts, hexpired, -⟩ := expirePreviousAttempt_spec (db.revived job) job
    rw [hexpired]
  have hstored : job.Admitted env (expirePreviousAttempt (db.revived job) job).workers := by
    have quiet : Quiet { db with workers := db.workers.revived job db.now } (db.revived job) :=
      Db.unpublishDrained_quiet _ _
    rw [hworkers]
    exact (hadmitted job hmem).keeps (later.keeps.trans quiet.workers)
  obtain ⟨after, response, hlease, hid⟩ := @leaseJob_ok env _ job revivedPrincipal revivedRequest
    db.now opens hstored hstandard hfresh
  refine ⟨_, revivedPrincipal, revivedRequest, revivedContext job db.now, after, response, later,
    fun _ => rfl, ?_, hid, fun hregulated => ?_⟩
  · have hcandidate := @revived_candidate env db job elapsed hidle hstandard hawaits hmem
    have hordinary : claimOrdinaryJob env (db.revived job) ⟨revivedNode db.now, revivedPolicy⟩
        revivedPrincipal revivedRequest (revivedContext job db.now) =
        .ok (after, .job response) := by
      have hkept : ¬(revivedContext job db.now).InstanceLost := by
        rintro (hquarantined | hlost)
        · cases hquarantined
        · exact hlost (revivedInstance job) rfl rfl
      have hsame : claimCandidate env (db.revived job) revivedRequest
          (revivedContext job db.now).lockedCandidates = some job := hcandidate
      simp only [claimOrdinaryJob, hsame, bind_eq_ok]
      refine ⟨(), revived_policy elapsed job.tags, ?_⟩
      rw [if_neg hkept]
      exact bind_eq_ok.mpr ⟨(after, response), hlease, rfl⟩
    rw [claimJob, revived_beginClaim elapsed hidle]
    exact hordinary
  · rw [hstandard] at hregulated
    cases hregulated

end Revival

section Outcome
variable {env : Services} {db : Db} {job : Job}

theorem reapable_of_exhausted {allowed : Action → Db → Prop} (h : Reachable env allowed db)
    (hidle : ∀ job ∈ db.jobs.rows, ¬job.WaitsRegulated) (hmem : job ∈ db.jobs.rows)
    (hexhausted : job.Exhausted db.now) : Reapable db job := by
  obtain ⟨after, hreaped, hjobs, hledger⟩ := reapExpiredTerminalLeases_ok h hmem hexhausted
  have hafter : ∀ other ∈ after.jobs.rows, ¬other.WaitsRegulated := by
    intro other hother
    rw [hjobs, Table.mem_set] at hother
    rcases hother with rfl | ⟨hold, -⟩
    · rintro ⟨-, hstatus | hstatus⟩ <;> cases hstatus
    · exact hidle other hold
  refine ⟨lockedBut job.id, after, { job with status := .failed },
    bind_eq_ok.mpr ⟨after, hreaped, reapInvalidRegulatedJobs_ok hafter _⟩, ?_, ?_, hledger⟩
  · rw [hjobs]
    exact Table.find_set_self
  · show ¬JobStatus.Live .failed
    decide

/-- A live job that is not exhausted waits for a claim once everything has run out. -/
theorem awaitsClaim_of_elapsed (hlife : (db.life job).WellFormed) (elapsed : db.Elapsed)
    (hmem : job ∈ db.jobs.rows) (hlive : job.status.Live) (hleft : ¬job.Exhausted db.now) :
    job.AwaitsClaim db.now := by
  have hpause := elapsed.pauses job hmem
  rcases hlive with hstatus | hstatus | hstatus
  · have hcount : job.attemptCount = 0 := hlife.queued hstatus
    have hmax : 1 ≤ job.maxAttempts := hlife.maxAttempts.1
    exact ⟨.inl hstatus, hpause, by omega⟩
  · exact ⟨.inr (.inl hstatus), hpause, hlife.retry hstatus⟩
  · obtain ⟨expiry, hexpiry⟩ := Option.isSome_iff_exists.mp (hlife.leased hstatus)
    have hexpired : job.LeaseExpired db.now :=
      ⟨expiry, hexpiry, elapsed.leases job hmem expiry hexpiry⟩
    refine ⟨.inr (.inr ⟨hstatus, hexpired⟩), hpause, ?_⟩
    by_contra hexhausted
    exact hleft ⟨hstatus, hexpired, not_lt.mp hexhausted⟩

end Outcome

section Sample

theorem sampleServices_opens : sampleServices.Opens := fun _ _ stored _ => ⟨stored, rfl⟩

def sampleReport : AttestationReport where
  id := .fromU128 30
  nodeId := .fromU128 20
  modelInstanceId := some (.fromU128 21)
  modelHash := some "weights"
  status := .verified
  keyOrigin := .teeRuntime
  expiresAt := 600000000
  collateralCurrent := true
  collateralExpiresAt := some 600000000
  signatureVerified := true
  certificateChainVerified := true
  tcbCurrent := true
  ephemeralPublicKey := none

def sampleRoute : RegulatedRoute where
  id := .fromU128 41
  userId := sampleUser
  modelId := .fromU128 1
  modelInstanceId := .fromU128 21
  nodeId := .fromU128 20
  attestationReportId := .fromU128 30
  tags := []
  estimatedInputTokens := 40
  maxOutputTokens := 10
  priority := 0
  status := .prepared
  expiresAt := 300000000
  jobId := none
  createRequestFingerprint := none
  billing := ⟨sampleBillingProfile, 40, 10, 50, 200000, 1638400000, 50000, 400, 4800, 55200⟩

/-- The node is attested and a route to it is prepared. -/
def sampleAttested : Workers :=
  { sampleWorkers 0 with
    nodes := Table.empty.set { sampleNode 0 with
      trustLevel := .enhanced
      attestationReportId := some (.fromU128 30)
      trustExpiresAt := some 600000000 }
    attestationReports := Table.empty.set sampleReport
    routes := Table.empty.set sampleRoute }

/-- A regulated job is created from the route and leased. -/
def sampleRegulatedLease : List Action :=
  [.report sampleAttested, .bootstrap sampleUser "github" 1000000 ⟨.fromU128 5, sampleEpoch⟩,
    .createRegulated sampleConsumer
      ⟨.fromU128 41, "create-1", .fromU128 30, .fromU128 21, "consumer-key", "envelope"⟩
      (.fromU128 7) 0,
    sampleClaim 0 (some sampleInstance)]

end Sample

end MindOne.Coordinator
